import TradeDesk.Side
import TradeDesk.Json.Bind
import TradeDesk.Json.Read
import TradeDesk.Json.Write
/-!
# Execution reports

What a broker reports for each execution: a message id unique per report, the broker's sequence
number, the order's internal id, its symbol and side, the quantity and price executed, the fee,
and whether the execution completes the order. Reports are stored in the inbox as their JSON
text, fields in this order, and read back by the rules of `Json.bind`.
-/

namespace TradeDesk

/-- An execution report from the broker. -/
structure BrokerFill where
  messageId : String := ""
  seq : UInt64 := 0
  orderId : String := ""
  symbol : String := ""
  side : Side := .blank
  qty : Int64 := 0
  price : Int64 := 0
  fee : Int64 := 0
  final : Bool := false
  deriving Repr, DecidableEq, Inhabited

namespace BrokerFill

/-- The report as JSON, fields in order. -/
def toJson (f : BrokerFill) : Json :=
  .obj [("broker_message_id", .str f.messageId), ("seq_no", .nat f.seq.toNat),
    ("internal_order_id", .str f.orderId), ("symbol", .str f.symbol), ("side", .str f.side.toText),
    ("qty", .word f.qty), ("price_micros", .word f.price), ("fee_micros", .word f.fee),
    ("final", .bool f.final)]

/-- The stored text of a report. -/
def encode (f : BrokerFill) : String := Json.render f.toJson

/-- The fields of a report, by their JSON names. -/
def fields : List (Json.Field BrokerFill) :=
  [ { name := "broker_message_id", set := fun v f => (Json.asString? v).map fun s => { f with messageId := s } },
    { name := "seq_no", set := fun v f => (Json.asUWord? v).map fun n => { f with seq := n } },
    { name := "internal_order_id", set := fun v f => (Json.asString? v).map fun s => { f with orderId := s } },
    { name := "symbol", set := fun v f => (Json.asString? v).map fun s => { f with symbol := s } },
    { name := "side", set := fun v f => (Json.asString? v).map fun s => { f with side := Side.ofText s } },
    { name := "qty", set := fun v f => (Json.asWord? v).map fun q => { f with qty := q } },
    { name := "price_micros", set := fun v f => (Json.asWord? v).map fun q => { f with price := q } },
    { name := "fee_micros", set := fun v f => (Json.asWord? v).map fun q => { f with fee := q } },
    { name := "final", set := fun v f => (Json.asBool? v).map fun b => { f with final := b } } ]

/-- Reads a report from a JSON value. -/
def ofJson? (j : Json) : Option BrokerFill := Json.bind fields {} j

/-- Reads a stored report. -/
def decode (text : String) : Option BrokerFill := (Json.parse? text).bind ofJson?

end BrokerFill

end TradeDesk
