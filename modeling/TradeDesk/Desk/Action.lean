import TradeDesk.Desk.Session
import TradeDesk.Desk.Intents
import TradeDesk.Dispatch.Once
import TradeDesk.Dispatch.Recovery
/-!
# Sessions as runs of actions

A desk and its venue change one action at a time. The actions are the desk's own operations
(queuing an intent or targets, taking in fills, order events, cancels and replaces, marks,
arming, disarming and reconciling), its dispatcher, recovery and sweeper passes with the desk as
their sink, executions at the broker, and the world around the desk: the clock moves, a
reconcile is recorded, the risk limiter is blocked or unblocked, the broker is told to fail a
request or a number of lookups. A pass reads the gates once, at its start, and recovery walks
the desk's own run.

A session is the world after its actions, in order; what each action answers is left out. A
restart ends a session, since the desk after it is a new one over the same venue.
-/

namespace TradeDesk

/-- One thing that happens to a running desk. -/
inductive Action where
  /-- Queue an intent. -/
  | enqueue (intent : Intent)
  /-- Queue the intents that move the positions to targets. -/
  | targets (targets : List (String × Int64))
  /-- One dispatcher pass that claims up to a batch of rows. -/
  | dispatch (claimant : String) (batch : Int)
  /-- One recovery pass over the desk's run. -/
  | recover
  /-- One sweep of claims older than a time to live. -/
  | sweep (ttl : Int64)
  /-- Executions at the broker, reported to the desk when `report` is set. -/
  | execute (fills : List FillOrder) (report : Bool)
  /-- Execution reports taken in by the desk. -/
  | ingest (fills : List BrokerFill)
  /-- An event of the broker about an order. -/
  | event (orderId : String) (ev : Event) (eventId : String)
  | cancel (orderId : String)
  | replace (orderId : String) (qty : Int64) (limit : Option Int64) (tif : String)
  | marks (marks : Marks)
  | arm
  | disarm (reason : String)
  | reconcile
  /-- The outcome of a comparison with the broker, recorded at the venue's time. -/
  | recordReconcile (clean : Bool)
  | advance (ns : Int)
  | block (reason : String)
  | unblock
  /-- The broker refuses its next request with a message. -/
  | failNext (message : String)
  /-- The broker fails its next lookups. -/
  | lookupFail (count : Nat)
  deriving Repr, Inhabited

namespace Action

/-- The world after one action. -/
def apply : Action → World → World
  | .enqueue intent, w => (enqueueIntent w intent).2
  | .targets ts, w => (enqueueTargets w ts).2.2
  | .dispatch claimant batch, w => (dispatchOnce (w.1.gates w.2.now) onSubmitted claimant batch w).2
  | .recover, w => (recoverRun (w.1.gates w.2.now) onSubmitted w.1.runId w).2
  | .sweep ttl, w => (sweepStaleClaims onSubmitted w.2.now ttl w).2
  | .execute fills report, w =>
    let v := (w.2.fillAll fills).2
    if report then (ingestFills (w.1, v) (executed (w.2.fillAll fills).1)).2 else (w.1, v)
  | .ingest fills, w => (ingestFills w fills).2
  | .event orderId ev eventId, w => (applyEvent w orderId ev eventId).2
  | .cancel orderId, w => (TradeDesk.cancel w orderId).2.2
  | .replace orderId qty limit tif, w => (TradeDesk.replace w orderId qty limit tif).2.2
  | .marks m, w => (w.1.setMarks m, w.2)
  | .arm, w => (TradeDesk.arm w).2
  | .disarm reason, w => (TradeDesk.disarm w reason).2
  | .reconcile, w => (TradeDesk.reconcile w).2
  | .recordReconcile clean, w => ({ w.1 with guard := w.1.guard.record w.2.now clean }, w.2)
  | .advance ns, w => (w.1, w.2.advance ns)
  | .block reason, w => ({ w.1 with limiter := w.1.limiter.block reason }, w.2)
  | .unblock, w => ({ w.1 with limiter := w.1.limiter.unblock }, w.2)
  | .failNext message, w => (w.1, { w.2 with broker := w.2.broker.failNextWith message })
  | .lookupFail count, w => (w.1, { w.2 with broker := { w.2.broker with lookupOutages := count } })

/-- The world after actions, in order. -/
def run (w : World) (acts : List Action) : World := acts.foldl (fun w (a : Action) => a.apply w) w

@[simp] theorem run_nil (w : World) : run w [] = w := rfl

@[simp] theorem run_cons (w : World) (a : Action) (acts : List Action) : run w (a :: acts) = run (a.apply w) acts :=
  rfl

theorem run_append (w : World) (as bs : List Action) : run w (as ++ bs) = run (run w as) bs := by
  simp only [run, List.foldl_append]

/-- What every action keeps, every session keeps. -/
theorem run_induction {P : World → Prop} (step : ∀ (w : World) (a : Action), P w → P (a.apply w)) :
    ∀ (w : World) (acts : List Action), P w → P (run w acts) := by
  intro w acts
  induction acts generalizing w with
  | nil => intro h; exact h
  | cons a acts ih => intro h; exact ih (a.apply w) (step w a h)

end Action

end TradeDesk
