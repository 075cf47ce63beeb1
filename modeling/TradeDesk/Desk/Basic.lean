import TradeDesk.Dispatch.Basic
import TradeDesk.Ledger.Journal
import TradeDesk.Order.Basic
import TradeDesk.Integrity.Arm
import TradeDesk.Reconcile.Freshness
import TradeDesk.Risk.Limiter
import TradeDesk.Store.Inbox
/-!
# The desk

The single writer around the execution core: the ledger, the marks, the order book of the
orders it tracks, the map from order ids to broker ids, the orders halted by an illegal
transition (with why), and the quantities of pending replaces. Beside them it holds the arm
state, the freshness of the last reconcile and the risk limiter, which together decide the three
gates of every broker call.

Every operation of the desk acts on a desk and a venue (the clock, ids, store and broker it
shares with dispatching).
-/

namespace TradeDesk

/-- The desk's state. -/
structure Desk where
  runId : String
  ledger : Ledger
  marks : Marks := []
  /-- Tracked orders, sorted by id. -/
  orders : List Order := []
  ids : IdMap := {}
  halted : List (String × String) := []
  replacing : List (String × Int64) := []
  arm : ArmState
  guard : Freshness
  limiter : Limiter
  /-- Whether reconcile asks the broker for its open orders. -/
  lister : Bool := true
  deriving Repr, Inhabited

/-- A desk with its venue. -/
abbrev World := Desk × Venue

/-- The refusal of an order the desk does not track. -/
def orderNotFound (orderId : String) : Fault :=
  .because .orderNotFound ("trade: order not found: " ++ orderId)

/-- The refusal of a halted order. -/
def orderHalted (orderId reason : String) : Fault :=
  .because .orderHalted ("trade: order halted after an illegal transition: " ++ orderId ++ " (" ++ reason ++ ")")

/-- The refusal to arm without a fresh clean reconcile. -/
def reconcileNotClean : Fault := .because .reconcileNotClean "trade: reconcile is not clean"

/-- The refusal of an intent that cannot be queued. -/
def invalidIntent (why : String) : Fault := .because .invalidIntent ("trade: invalid order intent: " ++ why)

namespace Desk

/-- A tracked order. -/
def order? (d : Desk) (orderId : String) : Option Order := d.orders.find? (·.id = orderId)

/-- Inserts an order into a list sorted by id, replacing one with the same id. -/
def insertOrder (o : Order) : List Order → List Order
  | [] => [o]
  | p :: ps => if o.id = p.id then o :: ps else if o.id < p.id then o :: p :: ps else p :: insertOrder o ps

/-- The desk tracking an order. -/
def putOrder (d : Desk) (o : Order) : Desk := { d with orders := insertOrder o d.orders }

/-- Why an order is halted, if it is. -/
def haltReason? (d : Desk) (orderId : String) : Option String := d.halted.lookup orderId

/-- The gates of a broker call at `now`. -/
def gates (d : Desk) (now : Instant) : Gates :=
  { armed := d.arm.armed, allowed := d.limiter.allowed, clean := d.guard.isClean now }

/-- The positions with their signed quantities. -/
def positions (d : Desk) : List (String × Int64) :=
  d.ledger.standing.holdings.map fun p => (p.symbol, p.qtySigned)

/-- The limiter brought up to date with the book and the marks. -/
def refreshLimiter (d : Desk) : Desk :=
  { d with limiter := d.limiter.update d.ledger.standing.holdings d.marks }

/-- Merges marks and refreshes the limiter. -/
def setMarks (d : Desk) (marks : Marks) : Desk :=
  refreshLimiter { d with marks := d.marks.merge marks }

/-- The number of tracked orders not terminal. -/
def openCount (d : Desk) : Nat := (d.orders.filter fun o => !o.state.terminal).length

end Desk

/-- Arms, which needs a fresh clean reconcile; the state is persisted. -/
def arm (w : World) : Except Fault ArmState × World :=
  let (d, v) := w
  if !d.guard.isClean v.now then (.error reconcileNotClean, w)
  else (.ok .armedState, ({ d with arm := .armedState }, { v with store := v.store.saveArm .armedState }))

/-- Disarms for a reason given as text, and persists the state. -/
def disarm (w : World) (reason : String) : Except Fault ArmState × World :=
  let (d, v) := w
  match disarmFor reason with
  | .error f => (.error f, w)
  | .ok st => (.ok st, ({ d with arm := st }, { v with store := v.store.saveArm st }))

end TradeDesk
