import TradeDesk.Side
import TradeDesk.Json.Bind
import TradeDesk.Json.Read
import TradeDesk.Json.Write
/-!
# Order intents

An intent is a decision to trade, written to the outbox before any broker call: an idempotency
key (which is also the order's id at the broker and in the order book), a symbol, a side, a
quantity, an order type, an optional limit price in micros, and a time in force.

`Intent.toJson` writes its fields in that order, the limit only when there is one.
`Intent.decode` reads a stored intent back by the rules of `Json.bind`; a text that is not JSON
or whose members have the wrong types is refused.

`Intent.ofTargets` turns target positions into the intents that move current holdings to them:
for each symbol of either, in symbol order, a buy of a positive difference or a sell of a
negative one (differences in word arithmetic); a symbol without a target is flattened, and
among targets for one symbol the last counts.
-/

namespace TradeDesk

/-- A decision to trade. -/
structure Intent where
  key : String := ""
  symbol : String := ""
  side : Side := .blank
  quantity : Int64 := 0
  orderType : String := ""
  limit : Option Int64 := none
  timeInForce : String := ""
  deriving Repr, DecidableEq, Inhabited

namespace Intent

/-- The intent as JSON, fields in their order, the limit only when set. -/
def toJson (i : Intent) : Json :=
  .obj ([("idempotency_key", .str i.key), ("symbol", .str i.symbol), ("side", .str i.side.toText),
    ("quantity", .word i.quantity), ("order_type", .str i.orderType)] ++
    (match i.limit with
      | some l => [("limit_price_micros", .word l)]
      | none => []) ++
    [("time_in_force", .str i.timeInForce)])

/-- The stored text of an intent. -/
def encode (i : Intent) : String := Json.render i.toJson

/-- The fields of an intent, by their JSON names. -/
def fields : List (Json.Field Intent) :=
  [ { name := "idempotency_key", set := fun v i => (Json.asString? v).map fun s => { i with key := s } },
    { name := "symbol", set := fun v i => (Json.asString? v).map fun s => { i with symbol := s } },
    { name := "side", set := fun v i => (Json.asString? v).map fun s => { i with side := Side.ofText s } },
    { name := "quantity", set := fun v i => (Json.asWord? v).map fun q => { i with quantity := q } },
    { name := "order_type", set := fun v i => (Json.asString? v).map fun s => { i with orderType := s } },
    { name := "limit_price_micros", set := fun v i => (Json.asWord? v).map fun l => { i with limit := some l },
      clear := fun i => { i with limit := none } },
    { name := "time_in_force", set := fun v i => (Json.asString? v).map fun s => { i with timeInForce := s } } ]

/-- Reads a stored intent. -/
def decode (text : String) : Option Intent := (Json.parse? text).bind (Json.bind fields {})

/-- Reads the intent stored in the outbox row with this id; a refusal is a malformed document. -/
def ofStored (id : Int) (text : String) : Except Fault Intent :=
  match decode text with
  | some i => .ok i
  | none => .error (.because .malformed ("decode outbox " ++ Text.ofInt id ++ ": malformed intent"))

/-- The intents that move the current holdings to the targets. -/
def ofTargets (current : List (String × Int64)) (targets : List (String × Int64)) : List Intent :=
  let wanted : List (String × Int64) := targets.foldl (fun w (s, q) => (s, q) :: w.filter (·.1 ≠ s)) []
  let symbols := (wanted.map (·.1) ++ current.map (·.1)).eraseDups.mergeSort (fun a b => a ≤ b)
  symbols.filterMap fun s =>
    let delta := ((wanted.lookup s).getD 0) - ((current.lookup s).getD 0)
    if 0 < delta then some { symbol := s, side := .buy, quantity := delta }
    else if delta < 0 then some { symbol := s, side := .sell, quantity := -delta }
    else none

end Intent

end TradeDesk
