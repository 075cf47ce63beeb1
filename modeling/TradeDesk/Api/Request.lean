import TradeDesk.Json.Bind
import TradeDesk.Json.Read
/-!
# Request bodies

The bodies the control surface reads, and how a body is read. Only the first JSON value of a body
counts (an object or array ends at its closing bracket; what follows is not read); a body that is
empty or blank holds no value at all, which only a disarm accepts. Values bind to the request
records by the rules of `Json.bind`, lists of records in place (`Json.bindSlots`); prices and fees
are decimal text.
-/

namespace TradeDesk.Api

/-- The outcome of reading a body: no value, a value, or text that is not JSON. -/
inductive Body where
  | empty
  | value (j : Json)
  | broken
  deriving Repr, Inhabited

/-- Reads the first value of a body. -/
def readBody (text : String) : Body :=
  if text.toList.all Json.isBlank then .empty
  else match Json.parseFirst? text with
    | some j => .value j
    | none => .broken

/-- Binds an object of texts: a null value is the empty text. -/
def bindTexts : Json → Option (List (String × String))
  | .null => some []
  | .obj ms => ms.mapM fun (k, v) =>
    match v with
    | .str s => some (k, s)
    | .null => some (k, "")
    | _ => none
  | _ => none

/-- A new intent, with its price as decimal text. -/
structure IntentRequest where
  key : String := ""
  symbol : String := ""
  side : String := ""
  quantity : Int64 := 0
  orderType : String := ""
  limitPrice : String := ""
  timeInForce : String := ""
  deriving Repr, Inhabited

/-- The fields of a new intent. -/
def IntentRequest.fields : List (Json.Field IntentRequest) :=
  [ { name := "idempotency_key", set := fun v r => (Json.asString? v).map fun s => { r with key := s } },
    { name := "symbol", set := fun v r => (Json.asString? v).map fun s => { r with symbol := s } },
    { name := "side", set := fun v r => (Json.asString? v).map fun s => { r with side := s } },
    { name := "quantity", set := fun v r => (Json.asWord? v).map fun q => { r with quantity := q } },
    { name := "order_type", set := fun v r => (Json.asString? v).map fun s => { r with orderType := s } },
    { name := "limit_price", set := fun v r => (Json.asString? v).map fun s => { r with limitPrice := s } },
    { name := "time_in_force", set := fun v r => (Json.asString? v).map fun s => { r with timeInForce := s } } ]

/-- A target position. -/
structure TargetRequest where
  symbol : String := ""
  qty : Int64 := 0
  deriving Repr, Inhabited

/-- The fields of a target position. -/
def TargetRequest.fields : List (Json.Field TargetRequest) :=
  [ { name := "symbol", set := fun v r => (Json.asString? v).map fun s => { r with symbol := s } },
    { name := "qty", set := fun v r => (Json.asWord? v).map fun q => { r with qty := q } } ]

/-- The fields of a targets body. -/
def targetsFields : List (Json.Field (Json.Slots TargetRequest)) :=
  [ { name := "targets", set := fun v s => Json.bindSlots TargetRequest.fields {} s v, clear := fun _ => {} } ]

/-- An amendment of an order, with its price as decimal text. -/
structure ReplaceRequest where
  quantity : Int64 := 0
  limitPrice : String := ""
  timeInForce : String := ""
  deriving Repr, Inhabited

/-- The fields of an amendment. -/
def ReplaceRequest.fields : List (Json.Field ReplaceRequest) :=
  [ { name := "quantity", set := fun v r => (Json.asWord? v).map fun q => { r with quantity := q } },
    { name := "limit_price", set := fun v r => (Json.asString? v).map fun s => { r with limitPrice := s } },
    { name := "time_in_force", set := fun v r => (Json.asString? v).map fun s => { r with timeInForce := s } } ]

/-- A broker lifecycle event for an order. -/
structure EventRequest where
  kind : String := ""
  deltaQty : Int64 := 0
  eventId : String := ""
  deriving Repr, Inhabited

/-- The fields of an event. -/
def EventRequest.fields : List (Json.Field EventRequest) :=
  [ { name := "kind", set := fun v r => (Json.asString? v).map fun s => { r with kind := s } },
    { name := "delta_qty", set := fun v r => (Json.asWord? v).map fun q => { r with deltaQty := q } },
    { name := "event_id", set := fun v r => (Json.asString? v).map fun s => { r with eventId := s } } ]

/-- A broker execution report, with price and fee as decimal text. -/
structure FillRequest where
  messageId : String := ""
  seq : UInt64 := 0
  orderId : String := ""
  symbol : String := ""
  side : String := ""
  qty : Int64 := 0
  price : String := ""
  fee : String := ""
  final : Bool := false
  deriving Repr, Inhabited

/-- The fields of an execution report. -/
def FillRequest.fields : List (Json.Field FillRequest) :=
  [ { name := "broker_message_id", set := fun v r => (Json.asString? v).map fun s => { r with messageId := s } },
    { name := "seq_no", set := fun v r => (Json.asUWord? v).map fun n => { r with seq := n } },
    { name := "internal_order_id", set := fun v r => (Json.asString? v).map fun s => { r with orderId := s } },
    { name := "symbol", set := fun v r => (Json.asString? v).map fun s => { r with symbol := s } },
    { name := "side", set := fun v r => (Json.asString? v).map fun s => { r with side := s } },
    { name := "qty", set := fun v r => (Json.asWord? v).map fun q => { r with qty := q } },
    { name := "price", set := fun v r => (Json.asString? v).map fun s => { r with price := s } },
    { name := "fee", set := fun v r => (Json.asString? v).map fun s => { r with fee := s } },
    { name := "final", set := fun v r => (Json.asBool? v).map fun b => { r with final := b } } ]

/-- The fields of a fills body. -/
def fillsFields : List (Json.Field (Json.Slots FillRequest)) :=
  [ { name := "fills", set := fun v s => Json.bindSlots FillRequest.fields {} s v, clear := fun _ => {} } ]

/-- The fields of a marks body: symbol to decimal text. -/
def marksFields : List (Json.Field (List (String × String))) :=
  [ { name := "marks", set := fun v ms => (bindTexts v).map (ms ++ ·), clear := fun _ => [] } ]

/-- The fields of a disarm body. -/
def reasonFields : List (Json.Field String) :=
  [ { name := "reason", set := fun v _ => Json.asString? v } ]

end TradeDesk.Api
