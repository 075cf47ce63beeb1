import TradeDesk.Desk.Recovery
/-!
# Desk sessions

How a desk session begins and how it restarts. A session starts from a configuration, an
optionally persisted arm state, whether a clean reconcile is recorded at the start, whether the
desk is armed (without persisting it), and the first marks. A restart keeps the store and the
broker and builds a new desk over them: a new ledger with the initial cash, the arm state booted
from the persisted one, a reconcile that is not yet clean, a fresh limiter and no marks, and then
restores it.

Fills executed at the paper broker are reported in order, each as its report or its refusal.
-/

namespace TradeDesk

/-- How a desk session starts. -/
structure DeskSetup where
  config : DeskConfig
  persisted : Option ArmState := none
  clean : Bool := true
  armed : Bool := true
  marks : Marks := []
  deriving Repr, Inhabited

/-- The world at the start of a session. -/
def DeskSetup.start (s : DeskSetup) : World :=
  let d := Desk.boot s.config s.persisted
  let d := if s.clean then { d with guard := d.guard.record 0 true } else d
  let d := if s.armed then { d with arm := .armedState } else d
  (d.setMarks s.marks, {})

/-- A restart: a new desk over the same venue, restored from the store. -/
def restart (c : DeskConfig) (w : World) : Except Fault Unit × World :=
  restore (Desk.boot c w.2.store.arm, w.2)

/-- A fill to execute at the broker: the client order id, quantity, price and fee. -/
structure FillOrder where
  clientId : String
  qty : Int64
  price : Int64
  fee : Int64
  deriving Repr, DecidableEq, Inhabited

/-- Executes fills at the broker in order: each report or refusal. -/
def Venue.fillAll (v : Venue) : List FillOrder → List (Except Fault BrokerFill) × Venue
  | [] => ([], v)
  | f :: rest =>
    let (r, broker) := v.broker.fill f.clientId f.qty f.price f.fee
    let (more, v) := Venue.fillAll { v with broker } rest
    (r :: more, v)

/-- The reports of the fills the broker executed. -/
def executed (rs : List (Except Fault BrokerFill)) : List BrokerFill :=
  rs.filterMap fun
    | .ok f => some f
    | .error _ => none

end TradeDesk
