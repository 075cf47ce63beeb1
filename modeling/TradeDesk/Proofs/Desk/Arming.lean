import TradeDesk.Proofs.Desk.Controls
/-!
# A disarm sticks until a clean arm

Three things disarm a desk: the ledger refusing a batch of fills, a reconcile that finds drift,
and an operator. Only arming arms it again, and arming succeeds exactly when the last clean
reconcile is fresh (`arm_ok_iff`). A drift also forgets the last clean reconcile, and only a
reconcile that finds no drift, or a clean outcome recorded, brings one back.

Each action is taken apart once: what it does to the arm state (`Action.arm_cases`: it keeps it,
disarms, or is an arm that succeeds) and to the guard (`Action.guard_cases`: it keeps it, records
a dirty outcome, or records a clean reconcile). `Action.Along P w acts` says that every step of
the session from `w` satisfies `P` in the world it is taken in; a property one step keeps under
`P` holds after every such session (`Action.run_of_along`). While a desk is disarmed its integrity
gate is the first closed one, and the gateway answers every submit, cancel and replace with its
refusal.
-/

namespace TradeDesk

namespace Action

/-- The action is an arm that succeeds in `w`. -/
def ArmsIn (w : World) (a : Action) : Prop := a = .arm ∧ ∃ s, (TradeDesk.arm w).1 = .ok s

/-- The action records a clean reconcile in `w`: a reconcile that finds no drift, or a clean
outcome recorded. -/
def RecordsClean (w : World) (a : Action) : Prop :=
  a = .reconcile ∧ (TradeDesk.reconcile w).1 = [] ∨ a = .recordReconcile true

/-- Every step of the session from `w` satisfies `P` in the world it is taken in. -/
def Along (P : World → Action → Prop) : World → List Action → Prop
  | _, [] => True
  | w, a :: acts => P w a ∧ Along P (a.apply w) acts

/-- What one step keeps under `P`, every session whose steps satisfy `P` keeps. -/
theorem run_of_along {Q : World → Prop} {P : World → Action → Prop} (step : ∀ w a, Q w → P w a → Q (a.apply w)) :
    ∀ (w : World) (acts : List Action), Q w → Along P w acts → Q (run w acts) := by
  intro w acts
  induction acts generalizing w with
  | nil => intro h _; exact h
  | cons a acts ih =>
    intro h hP
    exact ih (a.apply w) (step w a h hP.1) hP.2

/-- Along a session that keeps `Q`, a step condition implied under `Q` holds at every step. -/
theorem Along.of_invariant {Q : World → Prop} {P P' : World → Action → Prop}
    (step : ∀ w a, Q w → P w a → Q (a.apply w)) (imp : ∀ w a, Q w → P w a → P' w a) :
    ∀ (w : World) (acts : List Action), Q w → Along P w acts → Along P' w acts := by
  intro w acts
  induction acts generalizing w with
  | nil => intro _ _; trivial
  | cons a acts ih =>
    intro h hP
    exact ⟨imp w a h hP.1, ih (a.apply w) (step w a h hP.1) hP.2⟩

end Action

/-! ### What each operation does to the arm state and the guard -/

theorem arm_ok_iff (w : World) : (∃ s, (arm w).1 = .ok s) ↔ w.1.guard.isClean w.2.now = true := by
  obtain ⟨d, v⟩ := w
  unfold arm
  dsimp only
  by_cases h : d.guard.isClean v.now = true <;> simp [h]

theorem arm_effect (w : World) :
    (arm w).2.1.guard = w.1.guard ∧ ((arm w).2.1.arm = w.1.arm ∨ ∃ s, (arm w).1 = .ok s) := by
  obtain ⟨d, v⟩ := w
  unfold arm
  dsimp only
  split
  · exact ⟨rfl, .inl rfl⟩
  · exact ⟨rfl, .inr ⟨_, rfl⟩⟩

theorem disarm_effect (w : World) (reason : String) :
    (disarm w reason).2.1.guard = w.1.guard ∧
      ((disarm w reason).2.1.arm = w.1.arm ∨ (disarm w reason).2.1.arm.armed = false) := by
  obtain ⟨d, v⟩ := w
  unfold disarm disarmFor
  dsimp only
  split
  · exact ⟨rfl, .inl rfl⟩
  · rename_i st hst
    split at hst
    · cases hst
      exact ⟨rfl, .inr rfl⟩
    · cases hst

/-- A reconcile that finds no drift records a clean outcome; one that finds drift records a dirty
outcome and disarms for drift. -/
theorem reconcile_effect (w : World) :
    ((reconcile w).1 = [] ∧ (reconcile w).2.1.arm = w.1.arm ∧
        (reconcile w).2.1.guard = w.1.guard.record w.2.now true) ∨
      ((reconcile w).1 ≠ [] ∧ (reconcile w).2.1.arm = .disarmed .reconcileDrift ∧
        (reconcile w).2.1.guard = w.1.guard.record w.2.now false) := by
  obtain ⟨d, v⟩ := w
  unfold reconcile
  dsimp only
  split
  · exact .inl ⟨rfl, rfl, rfl⟩
  · split
    · exact .inl ⟨rfl, rfl, rfl⟩
    · rename_i hdrift
      exact .inr ⟨by simpa using hdrift, rfl, rfl⟩

/-- Applying fills changes the ledger, the orders and the limiter, never the arm state or the
guard. -/
theorem applyFills_arm_guard (w : World) (fills : List BrokerFill) :
    (applyFills w fills).2.1.arm = w.1.arm ∧ (applyFills w fills).2.1.guard = w.1.guard := by
  obtain ⟨d, v⟩ := w
  unfold applyFills
  dsimp only
  split
  · exact ⟨rfl, rfl⟩
  · split
    · exact ⟨rfl, rfl⟩
    · rename_i l _
      obtain ⟨-, -, harm, hguard, -⟩ :=
        Desk.controls_eq_iff.1 (controls_feedFills (BrokerFill.sortCanonical fills) { d with ledger := l })
      exact ⟨harm, hguard⟩

/-- Taking in fills keeps the guard, and leaves the arm state or disarms for an integrity
violation. -/
theorem ingestFills_effect (w : World) (fills : List BrokerFill) :
    (ingestFills w fills).2.1.guard = w.1.guard ∧
      ((ingestFills w fills).2.1.arm = w.1.arm ∨ (ingestFills w fills).2.1.arm = .disarmed .integrityViolation) := by
  obtain ⟨d, v⟩ := w
  unfold ingestFills
  split
  · exact ⟨rfl, .inl rfl⟩
  · dsimp only
    have h₁ := applyFills_arm_guard (d, (v.recordFills d.runId fills).2.2) (v.recordFills d.runId fills).1
    split
    · rename_i n w' heq
      rw [heq] at h₁
      exact ⟨h₁.2, .inl h₁.1⟩
    · rename_i f d' v' heq
      rw [heq] at h₁
      exact ⟨h₁.2, .inr rfl⟩

/-- An ingest of reports that all have message ids fails only when the ledger refuses the batch,
and then the desk disarms for an integrity violation. -/
theorem ingestFills_refused_disarms {w : World} {fills : List BrokerFill} {f : Fault}
    (hids : ∀ g ∈ fills, Text.isBlank g.messageId = false) (h : (ingestFills w fills).1 = .error f) :
    (ingestFills w fills).2.1.arm = .disarmed .integrityViolation := by
  rcases ingestFills_error h with ⟨⟨g, hg, hb⟩, -, -⟩ | ⟨e, -, -, hw⟩
  · rw [hids g hg] at hb
    cases hb
  · rw [hw, haltIntegrity_eq]

/-- While a desk is disarmed, the gateway refuses every submit, cancel and replace at its gates
with the refusal of the integrity gate, and changes nothing. -/
theorem gateway_refuses_of_disarmed {d : Desk} (h : d.arm.armed = false) (now : Instant) (v : Venue) :
    (∀ claim req, v.submit (d.gates now) claim req = (.error (Gates.refusal .integrity), v)) ∧
      (∀ internalId ids, v.cancel (d.gates now) internalId ids = (.error (Gates.refusal .integrity), v)) ∧
      (∀ internalId ids qty limit tif,
        v.replace (d.gates now) internalId ids qty limit tif = (.error (Gates.refusal .integrity), v)) := by
  have hclosed := (Desk.closed?_gates d now).1.2 h
  exact ⟨Venue.submit_of_closed hclosed v, Venue.cancel_of_closed hclosed v, Venue.replace_of_closed hclosed v⟩

/-! ### Every action -/

namespace Action

/-- What an action does to the arm state: it keeps it, disarms, or is an arm that succeeds. -/
theorem arm_cases (a : Action) (w : World) :
    (a.apply w).1.arm = w.1.arm ∨ (a.apply w).1.arm.armed = false ∨ a.ArmsIn w := by
  by_cases ho : a.onOrders = true
  · obtain ⟨-, -, harm, -, -⟩ := Desk.controls_eq_iff.1 (controls_apply_of_onOrders ho w)
    exact .inl harm
  obtain ⟨d, v⟩ := w
  cases a with
  | execute fills report =>
    cases report
    · exact .inl rfl
    · rcases (ingestFills_effect (d, (v.fillAll fills).2) _).2 with h | h
      · exact .inl h
      · exact .inr (.inl (congrArg ArmState.armed h))
  | ingest fills =>
    rcases (ingestFills_effect _ fills).2 with h | h
    · exact .inl h
    · exact .inr (.inl (congrArg ArmState.armed h))
  | arm =>
    rcases (arm_effect _).2 with h | h
    · exact .inl h
    · exact .inr (.inr ⟨rfl, h⟩)
  | disarm reason =>
    rcases (disarm_effect _ reason).2 with h | h
    · exact .inl h
    · exact .inr (.inl h)
  | reconcile =>
    rcases reconcile_effect (d, v) with ⟨-, h, -⟩ | ⟨-, h, -⟩
    · exact .inl h
    · exact .inr (.inl (congrArg ArmState.armed h))
  | marks _ | recordReconcile _ | block _ | unblock => exact .inl rfl
  | _ => exact absurd rfl ho

/-- What an action does to the guard: it keeps it, records a dirty outcome, or records a clean
reconcile. -/
theorem guard_cases (a : Action) (w : World) :
    (a.apply w).1.guard = w.1.guard ∨ (a.apply w).1.guard = w.1.guard.record w.2.now false ∨ a.RecordsClean w := by
  by_cases ho : a.onOrders = true
  · obtain ⟨-, -, -, hguard, -⟩ := Desk.controls_eq_iff.1 (controls_apply_of_onOrders ho w)
    exact .inl hguard
  obtain ⟨d, v⟩ := w
  cases a with
  | execute fills report =>
    cases report
    · exact .inl rfl
    · exact .inl (ingestFills_effect (d, (v.fillAll fills).2) _).1
  | ingest fills => exact .inl (ingestFills_effect _ fills).1
  | arm => exact .inl (arm_effect _).1
  | disarm reason => exact .inl (disarm_effect _ reason).1
  | reconcile =>
    rcases reconcile_effect (d, v) with ⟨hnil, -, -⟩ | ⟨-, -, h⟩
    · exact .inr (.inr (.inl ⟨rfl, hnil⟩))
    · exact .inr (.inl h)
  | recordReconcile clean =>
    cases clean
    · exact .inr (.inl rfl)
    · exact .inr (.inr (.inr rfl))
  | marks _ | block _ | unblock => exact .inl rfl
  | _ => exact absurd rfl ho

/-- A disarmed desk stays disarmed across a step that is not an arm that succeeds. -/
theorem armed_apply {a : Action} {w : World} (h : w.1.arm.armed = false) (hno : ¬ a.ArmsIn w) :
    (a.apply w).1.arm.armed = false := by
  rcases a.arm_cases w with h' | h' | h'
  · rw [h', h]
  · exact h'
  · exact absurd h' hno

/-- A guard with no clean reconcile has none after a step that records no clean reconcile. -/
theorem lastClean_apply {a : Action} {w : World} (h : w.1.guard.lastClean = none) (hno : ¬ a.RecordsClean w) :
    (a.apply w).1.guard.lastClean = none := by
  rcases a.guard_cases w with h' | h' | h'
  · rw [h', h]
  · rw [h']
    rfl
  · exact absurd h' hno

theorem not_armsIn {a : Action} {w : World} (h : w.1.guard.lastClean = none) : ¬ a.ArmsIn w := by
  rintro ⟨-, hok⟩
  rw [arm_ok_iff, Freshness.isClean_iff, Freshness.FreshAt, h] at hok
  simp at hok

end Action

/-- **A disarm sticks until a clean arm.** Over every world and every session of actions: an
ingest of reports that all have message ids and that fails (the ledger refused the batch)
disarms the desk, and a reconcile that finds drift disarms it and forgets the last clean
reconcile. Arming succeeds exactly when the guard is clean at that moment. A disarmed desk stays
disarmed through every session in which no arm succeeds, and at the end of it the gateway refuses
every submit, cancel and replace with the integrity gate's refusal. A desk with no clean reconcile
keeps none through every session that records no clean reconcile, and in such a session no arm
succeeds: after a drift, the desk stays disarmed until a reconcile finds no drift. -/
theorem disarm_sticks_until_clean_arm :
    (∀ (w : World) (fills : List BrokerFill) (f : Fault), (∀ g ∈ fills, Text.isBlank g.messageId = false) →
      (ingestFills w fills).1 = .error f → (ingestFills w fills).2.1.arm.armed = false) ∧
    (∀ w : World, (reconcile w).1 ≠ [] →
      (reconcile w).2.1.arm.armed = false ∧ (reconcile w).2.1.guard.lastClean = none) ∧
    (∀ w : World, (∃ s, (arm w).1 = .ok s) ↔ w.1.guard.isClean w.2.now = true) ∧
    (∀ (w : World) (acts : List Action), w.1.arm.armed = false → Action.Along (fun w a => ¬ a.ArmsIn w) w acts →
      (Action.run w acts).1.arm.armed = false ∧ ∀ (now : Instant) (v : Venue),
        (∀ claim req, v.submit ((Action.run w acts).1.gates now) claim req = (.error (Gates.refusal .integrity), v)) ∧
        (∀ internalId ids,
          v.cancel ((Action.run w acts).1.gates now) internalId ids = (.error (Gates.refusal .integrity), v)) ∧
        (∀ internalId ids qty limit tif, v.replace ((Action.run w acts).1.gates now) internalId ids qty limit tif =
          (.error (Gates.refusal .integrity), v))) ∧
    (∀ (w : World) (acts : List Action), w.1.guard.lastClean = none →
      Action.Along (fun w a => ¬ a.RecordsClean w) w acts →
      (Action.run w acts).1.guard.lastClean = none ∧ Action.Along (fun w a => ¬ a.ArmsIn w) w acts) := by
  refine ⟨fun w fills f hids h => ?_, fun w hdrift => ?_, arm_ok_iff, fun w acts h hno => ?_, fun w acts h hno => ?_⟩
  · rw [ingestFills_refused_disarms hids h]
    rfl
  · rcases reconcile_effect w with ⟨hnil, -, -⟩ | ⟨-, harm, hguard⟩
    · exact absurd hnil hdrift
    · rw [harm, hguard]
      exact ⟨rfl, rfl⟩
  · -- the arm state stays down step by step, and the gateway reads it first
    have harmed : (Action.run w acts).1.arm.armed = false :=
      @Action.run_of_along (fun w => w.1.arm.armed = false) (fun w a => ¬ a.ArmsIn w)
        (fun _ _ hw ha => Action.armed_apply hw ha) w acts h hno
    exact ⟨harmed, gateway_refuses_of_disarmed harmed⟩
  · -- no clean reconcile comes back step by step, and without one no arm succeeds
    have hstep : ∀ (w : World) (a : Action), w.1.guard.lastClean = none → ¬ a.RecordsClean w →
        (a.apply w).1.guard.lastClean = none := fun _ _ hw ha => Action.lastClean_apply hw ha
    exact ⟨Action.run_of_along hstep w acts h hno,
      Action.Along.of_invariant hstep (fun _ _ hw _ => Action.not_armsIn hw) w acts h hno⟩

/-- A desk that starts disarmed and without a clean reconcile: two arms around a step of the clock
are both refused, and the desk ends disarmed. -/
theorem disarm_sticks_on_a_desk_never_reconciled :
    let c : DeskConfig := { runId := "run", initialCash := 1000, fresh := 60, maxGross := 0, maxPerSymbol := 0 }
    let w := ({ config := c, clean := false, armed := false } : DeskSetup).start
    let acts : List Action := [.arm, .advance 5, .arm]
    w.1.arm.armed = false ∧ w.1.guard.lastClean = none ∧ Action.Along (fun w a => ¬ a.RecordsClean w) w acts ∧
      (Action.run w acts).1.guard.lastClean = none ∧ Action.Along (fun w a => ¬ a.ArmsIn w) w acts ∧
      (Action.run w acts).1.arm.armed = false := by
  intro c w acts
  have harmed : w.1.arm.armed = false := rfl
  have hclean : w.1.guard.lastClean = none := rfl
  have hrec : Action.Along (fun w a => ¬ a.RecordsClean w) w acts := by
    simp [acts, Action.Along, Action.RecordsClean]
  obtain ⟨hlast, hno⟩ := disarm_sticks_until_clean_arm.2.2.2.2 w acts hclean hrec
  exact ⟨harmed, hclean, hrec, hlast, hno, (disarm_sticks_until_clean_arm.2.2.2.1 w acts harmed hno).1⟩

end TradeDesk
