import TradeDesk.Proofs.Desk.NoDoubleSubmit
import TradeDesk.Proofs.Desk.BrokerIds
import TradeDesk.Proofs.Dispatch.Frame
/-!
# The broker moves only through open gates

Every submit, cancel and replace goes through the gateway, which first asks the three gates in the
order integrity, risk, reconcile, and answers the refusal of the first closed one before it looks
at the claim or at the order's broker id (`Venue.submit_of_closed` and its two siblings). A desk's
gates are its arm state, its risk limiter and the freshness of its last clean reconcile, read at
the venue's time: the risk gate is open when the limiter is not blocked and the gross exposure of
its book at its marks is within its cap (`Limiter.allowed_iff`), and the reconcile gate when the
last clean reconcile is at most the guard's bound old (`Freshness.isClean_iff`).

Nothing else reaches the broker's book or its count of submits (`Paper.Idle`). The desk's own
operations write the store and the desk; a lookup only uses up an injected outage; the desk as the
sink of a pass only records broker ids. So while a gate is closed every action but an execution at
the broker leaves the book and the count as they were (`Action.idle_of_closed`), and a restart,
which rebuilds the desk from the store, never touches the broker.
-/

namespace TradeDesk

/-! ### The three gates -/

/-- The risk gate's condition: not blocked, and the gross exposure of the limiter's book at its
marks within the gross cap, or no gross cap. -/
def Limiter.Admits (l : Limiter) : Prop :=
  l.blocked = "" ∧ (l.maxGross ≤ 0 ∨ (l.holdings.exposure l.marks).gross ≤ l.maxGross)

/-- The reconcile gate's condition: a clean reconcile at most `bound` old at `now`. -/
def Freshness.FreshAt (g : Freshness) (now : Instant) : Prop :=
  ∃ t, g.lastClean = some t ∧ Instant.since now t ≤ g.bound

/-- Every gate of the desk is open at `now`. -/
def Desk.GatesOpen (d : Desk) (now : Instant) : Prop :=
  d.arm.armed = true ∧ d.limiter.Admits ∧ d.guard.FreshAt now

theorem Holdings.enforceCap_ok_iff (h : Holdings) (marks : Marks) (cap : Int64) :
    (∃ u, h.enforceCap marks cap = .ok u) ↔ (h.exposure marks).gross ≤ cap := by
  unfold Holdings.enforceCap
  by_cases hc : cap < (h.exposure marks).gross
  · simp [hc]
  · simp [hc, Int64.not_lt.mp hc]

theorem Limiter.allowed_iff (l : Limiter) : l.allowed = true ↔ l.Admits := by
  rw [Admits, ← Holdings.enforceCap_ok_iff]
  unfold allowed
  cases l.holdings.enforceCap l.marks l.maxGross <;> simp

theorem Freshness.isClean_iff (g : Freshness) (now : Instant) : g.isClean now = true ↔ g.FreshAt now := by
  unfold isClean FreshAt
  cases g.lastClean <;> simp

/-- The first closed gate of a desk, in the order integrity, risk, reconcile. -/
theorem Desk.closed?_gates (d : Desk) (now : Instant) :
    ((d.gates now).closed? = some .integrity ↔ d.arm.armed = false) ∧
    ((d.gates now).closed? = some .risk ↔ d.arm.armed = true ∧ ¬ d.limiter.Admits) ∧
    ((d.gates now).closed? = some .reconcile ↔ d.arm.armed = true ∧ d.limiter.Admits ∧ ¬ d.guard.FreshAt now) ∧
    ((d.gates now).closed? = none ↔ d.GatesOpen now) := by
  rw [← Limiter.allowed_iff, ← Freshness.isClean_iff, GatesOpen, ← Limiter.allowed_iff, ← Freshness.isClean_iff]
  unfold Gates.closed? gates
  dsimp only
  cases d.arm.armed <;> cases d.limiter.allowed <;> cases d.guard.isClean now <;> simp

/-! ### The gateway refuses first -/

namespace Venue

variable {gs : Gates} {g : Gate}

theorem submit_of_closed (h : gs.closed? = some g) (v : Venue) (claim : Claim) (req : Intent) :
    v.submit gs claim req = (.error (Gates.refusal g), v) := by
  simp only [submit, Gates.enforce, h]

theorem cancel_of_closed (h : gs.closed? = some g) (v : Venue) (internalId : String) (ids : Option IdMap) :
    v.cancel gs internalId ids = (.error (Gates.refusal g), v) := by
  simp only [cancel, Gates.enforce, h]

theorem replace_of_closed (h : gs.closed? = some g) (v : Venue) (internalId : String) (ids : Option IdMap)
    (qty : Int64) (limit : Option Int64) (tif : String) :
    v.replace gs internalId ids qty limit tif = (.error (Gates.refusal g), v) := by
  simp only [replace, Gates.enforce, h]

end Venue

/-! ### A broker book nothing changed -/

/-- The broker holds the same orders and has counted the same submits. -/
structure Paper.Idle (b b' : Paper) : Prop where
  orders : b'.orders = b.orders
  submits : b'.submits = b.submits

namespace Paper.Idle

theorem refl (b : Paper) : Idle b b := ⟨rfl, rfl⟩

theorem trans {b b' b'' : Paper} (h₁ : Idle b b') (h₂ : Idle b' b'') : Idle b b'' :=
  ⟨h₂.orders.trans h₁.orders, h₂.submits.trans h₁.submits⟩

theorem of_eq {b b' : Paper} (h : b' = b) : Idle b b' := h ▸ refl b

end Paper.Idle

theorem Paper.idle_lookup (b : Paper) (k : String) : Idle b (b.lookup k).2 := by
  unfold lookup
  split <;> exact ⟨rfl, rfl⟩

/-- While a gate is closed, no step of a pass changes the broker's book, given a sink that leaves
the broker alone. -/
theorem passFrame_idle {σ : Type} {sink : Sink σ} (hsink : sink.Framed) :
    PassFrame (fun w w' : σ × Venue => Paper.Idle w.2.broker w'.2.broker) sink where
  refl := fun w => .refl w.2.broker
  trans := fun h₁ h₂ => h₁.trans h₂
  outbox := fun w _ _ => .refl w.2.broker
  lookup := fun w k => w.2.broker.idle_lookup k
  sink := fun intent ack w => .of_eq (hsink intent ack w).2

theorem idle_submit_of_closed {σ : Type} {gs : Gates} {g : Gate} (h : gs.closed? = some g) (w : σ × Venue)
    (claim : Claim) (req : Intent) : Paper.Idle w.2.broker (w.1, (w.2.submit gs claim req).2).2.broker := by
  rw [Venue.submit_of_closed h]
  exact .refl _

/-! ### The desk's own operations -/

theorem Venue.broker_forgetAll (orderIds : List String) (v : Venue) : (orderIds.foldl Venue.forget v).broker = v.broker := by
  induction orderIds generalizing v with
  | nil => rfl
  | cons id rest ih => exact ih _

theorem broker_applyFills (w : World) (fills : List BrokerFill) : (applyFills w fills).2.2.broker = w.2.broker := by
  unfold applyFills
  split
  rename_i d v
  split
  · rfl
  · split
    · rfl
    · exact Venue.broker_forgetAll _ v

theorem broker_disarm (w : World) (reason : String) : (disarm w reason).2.2.broker = w.2.broker := by
  unfold disarm
  split
  split <;> rfl

theorem broker_arm (w : World) : (arm w).2.2.broker = w.2.broker := by
  unfold arm
  split
  split <;> rfl

theorem broker_reconcile (w : World) : (reconcile w).2.2.broker = w.2.broker := by
  unfold reconcile
  split
  split
  · rfl
  · dsimp only
    split
    · rfl
    · exact broker_disarm _ _

theorem broker_ingestFills (w : World) (fills : List BrokerFill) : (ingestFills w fills).2.2.broker = w.2.broker := by
  unfold ingestFills
  split
  · rfl
  · split
    rename_i d v
    have h₁ : (applyFills (d, (v.recordFills d.runId fills).2.2) (v.recordFills d.runId fills).1).2.2.broker = v.broker :=
      (broker_applyFills _ _).trans (Venue.recordFills_frame v d.runId fills).2
    split
    rename_i fresh dups v' hrec
    rw [hrec] at h₁
    split
    · rename_i n w' heq
      rw [heq] at h₁
      exact h₁
    · rename_i f d' v'' heq
      rw [heq] at h₁
      exact (broker_disarm _ _).trans h₁

theorem broker_applyEvent (w : World) (orderId : String) (ev : Event) (eventId : String) :
    (applyEvent w orderId ev eventId).2.2.broker = w.2.broker := by
  unfold applyEvent
  split
  split
  · rfl
  · dsimp only
    split <;> rfl

theorem enqueueAll_keeps (intents : List Intent) (w : World) :
    (enqueueAll w intents).2.2.1 = w.1 ∧ (enqueueAll w intents).2.2.2.broker = w.2.broker := by
  induction intents generalizing w with
  | nil => exact ⟨rfl, rfl⟩
  | cons i rest ih =>
    have h₁ : (enqueueIntent w i).2.1 = w.1 ∧ (enqueueIntent w i).2.2.broker = w.2.broker :=
      ⟨(enqueueIntent_cases w i).1, (enqueueIntent_cases w i).2.1⟩
    unfold enqueueAll
    split
    · rename_i f w' heq
      rw [heq] at h₁
      exact h₁
    · rename_i queued _ w' heq
      rw [heq] at h₁
      exact ⟨(ih w').1.trans h₁.1, (ih w').2.trans h₁.2⟩

section Closed

variable {d : Desk} {v : Venue} {g : Gate}

/-- A cancel is refused by the desk, or by the first closed gate. -/
theorem broker_cancel_of_closed (h : (d.gates v.now).closed? = some g) (orderId : String) :
    (cancel (d, v) orderId).2.2.2.broker = v.broker := by
  unfold cancel
  dsimp only
  split
  · rfl
  · split
    · rfl
    · rw [Venue.cancel_of_closed h]

theorem broker_replace_of_closed (h : (d.gates v.now).closed? = some g) (orderId : String) (qty : Int64)
    (limit : Option Int64) (tif : String) : (replace (d, v) orderId qty limit tif).2.2.2.broker = v.broker := by
  unfold replace
  dsimp only
  split
  · rfl
  · split
    · rfl
    · rw [Venue.replace_of_closed h]

end Closed

/-! ### Restarts -/

theorem broker_applyInDoubt (fills : List BrokerFill) : ∀ (w : World), (applyInDoubt w fills).2.broker = w.2.broker := by
  induction fills with
  | nil => intro w; rfl
  | cons f rest ih =>
    intro w
    have h₁ := broker_applyFills w [f]
    unfold applyInDoubt
    split
    · rename_i n w' heq
      rw [heq] at h₁
      exact (ih w').trans h₁
    · rename_i e d' v' heq
      rw [heq] at h₁
      exact (ih _).trans h₁

theorem broker_restart (c : DeskConfig) (w : World) : (restart c w).2.2.broker = w.2.broker := by
  unfold restart restore
  dsimp only
  generalize (Desk.boot c w.2.store.arm).restoreOrders w.2.store = d
  obtain ⟨ids, hids⟩ := sortInbox_discards w.2 (w.2.store.inboxOf d.runId)
  have h₁ : (sortInbox w.2 (w.2.store.inboxOf d.runId)).2.broker = w.2.broker := by
    rw [hids]
    rfl
  split
  · rename_i f v' heq
    rw [heq] at h₁
    exact h₁
  · rename_i accepted doubt v' heq
    rw [heq] at h₁
    have h₂ := (broker_applyFills (d, v') accepted).trans h₁
    split
    · rename_i f w' heq'
      rw [heq'] at h₂
      exact h₂
    · rename_i n w' heq'
      rw [heq'] at h₂
      exact (broker_applyInDoubt _ w').trans h₂

/-! ### Every action -/

/-- While a gate of the desk is closed at the venue's time, no action but an execution at the
broker changes the broker's book or its count of submits. -/
theorem Action.idle_of_closed (a : Action) (w : World) (hexec : ∀ fills report, a ≠ .execute fills report)
    {g : Gate} (h : (w.1.gates w.2.now).closed? = some g) : Paper.Idle w.2.broker (a.apply w).2.broker := by
  obtain ⟨d, v⟩ := w
  cases a with
  | enqueue i => exact .of_eq (enqueueIntent_cases _ i).2.1
  | targets ts => exact .of_eq (enqueueAll_keeps _ _).2
  | dispatch claimant batch =>
    exact (passFrame_idle onSubmitted_framed).dispatchOnce (idle_submit_of_closed h) claimant batch _
  | recover => exact (passFrame_idle onSubmitted_framed).recoverRun (idle_submit_of_closed h) _ _
  | sweep ttl => exact (passFrame_idle onSubmitted_framed).sweepStaleClaims _ ttl _
  | execute fills report => exact absurd rfl (hexec fills report)
  | ingest fills => exact .of_eq (broker_ingestFills _ fills)
  | event orderId ev eventId => exact .of_eq (broker_applyEvent _ _ _ _)
  | cancel orderId => exact .of_eq (broker_cancel_of_closed h orderId)
  | replace orderId qty limit tif => exact .of_eq (broker_replace_of_closed h orderId qty limit tif)
  | marks m => exact .refl v.broker
  | arm => exact .of_eq (broker_arm _)
  | disarm reason => exact .of_eq (broker_disarm _ reason)
  | reconcile => exact .of_eq (broker_reconcile _)
  | recordReconcile clean => exact .refl v.broker
  | advance ns => exact .refl v.broker
  | block reason => exact .refl v.broker
  | unblock => exact .refl v.broker
  | failNext message => exact ⟨rfl, rfl⟩
  | lookupFail count => exact ⟨rfl, rfl⟩

/-- An execution at the broker changes it only through the broker's own fills. -/
theorem broker_execute (w : World) (fills : List FillOrder) (report : Bool) :
    ((Action.execute fills report).apply w).2.broker = (w.2.fillAll fills).2.broker := by
  cases report
  · rfl
  · exact broker_ingestFills _ _

/-- **The broker moves only through open gates.** In every world and for every action but an
execution at the broker: if the action changes the broker's book or its count of submits, then at
the venue's time the desk is armed, its risk limiter is not blocked and the gross exposure of its
book at its marks is within its cap (or it has none), and its last clean reconcile is at most the
guard's bound old. An execution changes the broker only by its fills, and a restart not at all.
The first closed gate is the first of integrity, risk and reconcile whose condition fails, and
while one is closed the gateway's submit, cancel and replace answer its refusal and change
nothing, whatever the claim, the order's id and the id map. -/
theorem broker_moves_through_open_gates :
    (∀ (w : World) (a : Action), (∀ fills report, a ≠ .execute fills report) →
      ((a.apply w).2.broker.orders ≠ w.2.broker.orders ∨ (a.apply w).2.broker.submits ≠ w.2.broker.submits) →
      w.1.GatesOpen w.2.now) ∧
    (∀ (w : World) (fills : List FillOrder) (report : Bool),
      ((Action.execute fills report).apply w).2.broker = (w.2.fillAll fills).2.broker) ∧
    (∀ (c : DeskConfig) (w : World), (restart c w).2.2.broker = w.2.broker) ∧
    (∀ (d : Desk) (now : Instant),
      ((d.gates now).closed? = some .integrity ↔ d.arm.armed = false) ∧
      ((d.gates now).closed? = some .risk ↔ d.arm.armed = true ∧ ¬ d.limiter.Admits) ∧
      ((d.gates now).closed? = some .reconcile ↔ d.arm.armed = true ∧ d.limiter.Admits ∧ ¬ d.guard.FreshAt now)) ∧
    (∀ (v : Venue) (gs : Gates) (g : Gate), gs.closed? = some g →
      (∀ claim req, v.submit gs claim req = (.error (Gates.refusal g), v)) ∧
      (∀ internalId ids, v.cancel gs internalId ids = (.error (Gates.refusal g), v)) ∧
      (∀ internalId ids qty limit tif, v.replace gs internalId ids qty limit tif = (.error (Gates.refusal g), v))) := by
  refine ⟨?_, broker_execute, broker_restart, fun d now => ?_, fun v gs g h => ?_⟩
  · intro w a hexec hmoved
    by_contra hopen
    obtain ⟨g, hg⟩ := Option.ne_none_iff_exists'.1 (mt (Desk.closed?_gates w.1 w.2.now).2.2.2.1 hopen)
    have hidle := a.idle_of_closed w hexec hg
    exact hmoved.elim (· hidle.orders) (· hidle.submits)
  · obtain ⟨hi, hr, hc, -⟩ := Desk.closed?_gates d now
    exact ⟨hi, hr, hc⟩
  · exact ⟨Venue.submit_of_closed h v, Venue.cancel_of_closed h v, Venue.replace_of_closed h v⟩

/-- Dispatching a queued order submits it to the broker, through gates that were open. -/
theorem broker_moves_through_open_gates_on_dispatch :
    let c : DeskConfig := { runId := "run", initialCash := 1000, fresh := 0, maxGross := 0, maxPerSymbol := 0 }
    let w := Action.run (DeskSetup.start { config := c, marks := [("ABC", 1)] })
      [.enqueue { key := "k", symbol := "ABC", side := .buy, quantity := 10 }]
    let a : Action := .dispatch "d" 1
    (∀ fills report, a ≠ .execute fills report) ∧ (a.apply w).2.broker.submits ≠ w.2.broker.submits ∧
      w.1.GatesOpen w.2.now := by
  intro c w a
  have hexec : ∀ fills report, a ≠ .execute fills report := fun _ _ h => Action.noConfusion h
  have hmoved : (a.apply w).2.broker.submits ≠ w.2.broker.submits := by decide +kernel
  exact ⟨hexec, hmoved, broker_moves_through_open_gates.1 w a hexec (.inr hmoved)⟩

end TradeDesk
