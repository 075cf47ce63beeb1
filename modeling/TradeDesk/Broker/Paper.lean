import TradeDesk.Intent
import TradeDesk.Uuid
import TradeDesk.Clock
import TradeDesk.Fault
import TradeDesk.Broker.Report
/-!
# The paper broker

A broker simulated in memory. It keeps its orders under the client order id they were submitted
with (the intent's key) and under the broker id it gave them. Submitting a client id a second
time answers the order already held and still counts as a submit, as a real broker does with
duplicate client ids. An order is open while new; it closes when cancelled or completely filled.
A replace changes an open order's quantity (never below what is filled), its limit, and its time
in force when a new one is given.

Every mutating call needs a token minted by the gateway. It can be told to fail its next
mutating call with a given text, and to fail its next lookups; either failure changes nothing
else.
-/

namespace TradeDesk

/-- Proof that a call comes through the gateway. -/
structure InvokeToken where
  minted : Bool
  deriving Repr, DecidableEq, Inhabited

/-- The refusal of a token the gateway did not mint. -/
def InvokeToken.verify (t : InvokeToken) : Except Fault Unit :=
  if t.minted then .ok () else .error (.because .forgedToken "execution: broker invoked without a gateway token")

/-- The statuses of a paper order. -/
inductive PaperStatus where
  | new
  | filled
  | canceled
  deriving Repr, DecidableEq, Inhabited

/-- The name of a status. -/
def PaperStatus.text : PaperStatus → String
  | .new => "new"
  | .filled => "filled"
  | .canceled => "canceled"

/-- An order at the paper broker. -/
structure PaperOrder where
  brokerId : String
  clientId : String
  request : Intent
  filled : Int64 := 0
  status : PaperStatus := .new
  deriving Repr, DecidableEq, Inhabited

/-- Whether an order is open. -/
def PaperOrder.isOpen (o : PaperOrder) : Bool := o.status = .new

/-- The broker's answer to a submit, cancel or replace: the broker id, a status, and when. -/
structure BrokerAck where
  brokerId : String
  status : String
  stamped : Instant
  deriving Repr, DecidableEq, Inhabited

/-- The paper broker's book. -/
structure Paper where
  /-- Orders in the order they were created. -/
  orders : List PaperOrder := []
  submits : Nat := 0
  /-- The number of fills executed, which numbers the fill reports. -/
  fillSeq : UInt64 := 0
  failNext : Option String := none
  lookupOutages : Nat := 0
  deriving Repr, Inhabited

namespace Paper

/-- The order submitted under a client id. -/
def byClient? (b : Paper) (clientId : String) : Option PaperOrder := b.orders.find? (·.clientId = clientId)

/-- The order with a broker id. -/
def byBroker? (b : Paper) (brokerId : String) : Option PaperOrder := b.orders.find? (·.brokerId = brokerId)

/-- The book with the order of a broker id replaced. -/
def replaceOrder (b : Paper) (o : PaperOrder) : Paper :=
  { b with orders := b.orders.map fun x => if x.brokerId = o.brokerId then o else x }

/-- Makes the next mutating call fail with a text. -/
def failNextWith (b : Paper) (message : String) : Paper := { b with failNext := some message }

/-- Takes the injected failure of a mutating call, if any. -/
def takeFailure (b : Paper) : Option Fault × Paper :=
  match b.failNext with
  | some m => (some (.plain m), { b with failNext := none })
  | none => (none, b)

/-- Submits an intent under its key; a new order takes the next issued id. -/
def submit (b : Paper) (ids : IdSource) (now : Instant) (tok : InvokeToken) (req : Intent) :
    Except Fault BrokerAck × Paper × IdSource :=
  match tok.verify with
  | .error f => (.error f, b, ids)
  | .ok () =>
    match b.takeFailure with
    | (some f, b) => (.error f, b, ids)
    | (none, b) =>
      let b := { b with submits := b.submits + 1 }
      match b.byClient? req.key with
      | some o => (.ok { brokerId := o.brokerId, status := o.status.text, stamped := now }, b, ids)
      | none =>
        let (brokerId, ids) := ids.next
        let o : PaperOrder := { brokerId, clientId := req.key, request := req }
        (.ok { brokerId, status := o.status.text, stamped := now }, { b with orders := b.orders ++ [o] }, ids)

/-- The open order of a broker id, or why there is none. -/
def openOrder (b : Paper) (brokerId : String) : Except Fault PaperOrder :=
  match b.byBroker? brokerId with
  | none => .error (.because .unknownBrokerOrder ("broker: unknown broker order id: " ++ brokerId))
  | some o =>
    if o.isOpen then .ok o
    else .error (.because .orderClosed ("broker: order is no longer open: " ++ brokerId ++ " is " ++ o.status.text))

/-- Cancels an open order. -/
def cancel (b : Paper) (now : Instant) (tok : InvokeToken) (brokerId : String) : Except Fault BrokerAck × Paper :=
  match tok.verify with
  | .error f => (.error f, b)
  | .ok () =>
    match b.takeFailure with
    | (some f, b) => (.error f, b)
    | (none, b) =>
      match b.openOrder brokerId with
      | .error f => (.error f, b)
      | .ok o =>
        let o := { o with status := .canceled }
        (.ok { brokerId := o.brokerId, status := o.status.text, stamped := now }, b.replaceOrder o)

/-- Replaces the quantity, limit and (when one is given) time in force of an open order. -/
def replace (b : Paper) (now : Instant) (tok : InvokeToken) (brokerId : String) (qty : Int64)
    (limit : Option Int64) (tif : String) : Except Fault BrokerAck × Paper :=
  match tok.verify with
  | .error f => (.error f, b)
  | .ok () =>
    match b.takeFailure with
    | (some f, b) => (.error f, b)
    | (none, b) =>
      match b.openOrder brokerId with
      | .error f => (.error f, b)
      | .ok o =>
        if qty < o.filled then
          (.error (.plain ("broker: replace qty " ++ Text.ofWord qty ++ " below filled " ++ Text.ofWord o.filled)), b)
        else
          let req := { o.request with quantity := qty, limit,
                                      timeInForce := if tif = "" then o.request.timeInForce else tif }
          (.ok { brokerId := o.brokerId, status := "replaced", stamped := now }, b.replaceOrder { o with request := req })

/-- Looks up the broker id of a client id, open or not; fails while a lookup outage lasts. -/
def lookup (b : Paper) (clientId : String) : Except Fault (Option String) × Paper :=
  if b.lookupOutages > 0 then (.error (.plain "lookup unavailable"), { b with lookupOutages := b.lookupOutages - 1 })
  else (.ok ((b.byClient? clientId).map (·.brokerId)), b)

/-- The open orders: client id to broker id. -/
def openOrders (b : Paper) : List (String × String) :=
  (b.orders.filter (·.isOpen)).map fun o => (o.clientId, o.brokerId)

/-- The client ids of all orders, sorted. -/
def clientIds (b : Paper) : List String := (b.orders.map (·.clientId)).mergeSort (· ≤ ·)

/-- Executes `qty` of an open order at a price and reports it; the order closes once filled. -/
def fill (b : Paper) (clientId : String) (qty price fee : Int64) : Except Fault BrokerFill × Paper :=
  match b.byClient? clientId with
  | none => (.error (.because .unknownBrokerOrder ("broker: unknown broker order id: client " ++ clientId)), b)
  | some o =>
    if !o.isOpen then
      (.error (.because .orderClosed ("broker: order is no longer open: " ++ o.brokerId ++ " is " ++ o.status.text)), b)
    else if qty ≤ 0 ∨ o.request.quantity < o.filled + qty then
      (.error (.plain ("broker: fill qty " ++ Text.ofWord qty ++ " invalid, " ++ Text.ofWord o.filled ++ " of " ++
        Text.ofWord o.request.quantity ++ " filled")), b)
    else
      let filled := o.filled + qty
      let final := filled = o.request.quantity
      let o := { o with filled, status := if final then .filled else o.status }
      let seq := b.fillSeq + 1
      let report : BrokerFill :=
        { messageId := o.brokerId ++ "-" ++ Text.ofNat seq.toNat, seq, orderId := o.clientId,
          symbol := o.request.symbol, side := o.request.side, qty, price, fee, final }
      (.ok report, { b.replaceOrder o with fillSeq := seq })

end Paper

end TradeDesk
