import TradeDesk.Gateway.Route
import TradeDesk.Store.Outbox
/-!
# Reporting submissions

A submission the broker accepted is completed in three steps: its outbox row is marked sent,
the submission is reported to a sink (the desk's order book, or a recorder), and the row is
marked acked. A sink may refuse; the row then stays sent, to be found by recovery.

A sink acts on its own state and on the venue, so the desk's sink can record broker ids in the
store.
-/

namespace TradeDesk

/-- A sink: takes a reported submission, or refuses it. -/
abbrev Sink (σ : Type) := Intent → BrokerAck → σ × Venue → Except Fault Unit × (σ × Venue)

/-- Whether a fault is a gate refusal. -/
def Fault.isGateRefusal (f : Fault) : Bool := f.gate?.isSome

namespace Venue

/-- Marks the row of a key sent. -/
def markSent (v : Venue) (key : String) : Venue := { v with store := (v.store.markSent v.now key).2 }

/-- Marks the row of a key acked. -/
def markAcked (v : Venue) (key : String) : Venue := { v with store := (v.store.markAcked key).2 }

/-- Submits the order of a stored row through the gateway, leaving the outbox as it is (what a
dispatcher that stopped right after the broker call leaves behind). The row must exist and its
claim be valid; the request is the one given, else the row's intent, else an empty one. -/
def submitStored (v : Venue) (gs : Gates) (key : String) (req : Option Intent) : Except Fault BrokerAck × Venue :=
  match v.store.fetch key with
  | .error f => (.error f, v)
  | .ok row =>
    match Claim.ofRow (some row) with
    | .error f => (.error f, v)
    | .ok claim => v.submit gs claim (req.getD ((Intent.decode row.orderJson).getD {}))

end Venue

/-- Completes an accepted submission: sent, reported, acked. A refusal of the sink stops before
the ack. -/
def complete {σ : Type} (sink : Sink σ) (intent : Intent) (ack : BrokerAck) (w : σ × Venue) :
    Except Fault Unit × (σ × Venue) :=
  let w := (w.1, w.2.markSent intent.key)
  match sink intent ack w with
  | (.error f, w) => (.error f, w)
  | (.ok (), w) => (.ok (), (w.1, w.2.markAcked intent.key))

/-- A sink that records what it is told, and can be told to refuse the next report. -/
structure Recorder where
  log : List (Intent × BrokerAck) := []
  failNext : Option String := none
  deriving Repr, Inhabited

/-- The recorder's sink. -/
def Recorder.sink : Sink Recorder := fun intent ack (r, v) =>
  match r.failNext with
  | some m => (.error (.plain m), ({ r with failNext := none }, v))
  | none => (.ok (), ({ r with log := r.log ++ [(intent, ack)] }, v))

end TradeDesk
