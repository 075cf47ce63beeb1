import TradeDesk.Proofs.Desk.Ingest
import TradeDesk.Proofs.Dispatch.Agrees
/-!
# Reconcile finds no drift

A session whose executions are all reported to the desk ends with the desk agreeing with the
broker, so a reconcile then finds no drift (`reconcile_finds_no_drift`): every live order is
mapped to a broker order open under its id, and every order open at the broker is tracked.

The sessions are runs of actions in which the broker executes fills at prices and fees that are
not negative, with room in its count of fills, and the desk takes the reports in, first ones
first. `Action.owes` follows the reports the desk is owed along a run: executions add theirs,
unless they are reported at once, and taking reports in removes them. An order event injected from
outside the broker is not part of these sessions.

Every action keeps the agreement with the reports owed (`Agrees.step`): the desk's own operations
and the passes by the lemmas of `Proofs/Desk/Agrees` and `Proofs/Dispatch/Agrees`, executions and
reports by those of `Proofs/Desk/Ingest`, and the rest because they change neither the orders of
the desk nor those of the broker.
-/

namespace TradeDesk

namespace Action

/-- The reports the desk is owed after an action, given those owed before, or `none` when the
action is outside the sessions this file is about: an order event injected from outside, an
execution at a negative price or fee or past the room in the broker's count, an execution
reported at once while reports are owed, or reports taken in that are not the first ones owed. -/
def owes : Action → World → List BrokerFill → Option (List BrokerFill)
  | .execute fills report, w, owed =>
    if (fills.all fun f => decide (0 ≤ f.price) && decide (0 ≤ f.fee)) &&
        decide (w.2.broker.fillSeq.toNat + fills.length < UInt64.size) then
      if report then (if owed = [] then some [] else none)
      else some (owed ++ executed (w.2.fillAll fills).1)
    else none
  | .ingest fills, _, owed => if fills = owed.take fills.length then some (owed.drop fills.length) else none
  | .event _ _ _, _, _ => none
  | _, _, owed => some owed

/-- The reports owed after actions in order, or `none` when one of them is outside these sessions. -/
def owedAfter : World → List BrokerFill → List Action → Option (List BrokerFill)
  | _, owed, [] => some owed
  | w, owed, a :: acts => (a.owes w owed).bind fun owed' => owedAfter (a.apply w) owed' acts

end Action

namespace Agrees

variable {d : Desk} {v : Venue} {owed : List BrokerFill}

/-- A change of the venue's clock or of the broker's failure switches keeps the agreement. -/
theorem venue (h : Agrees (d, v) owed) {v' : Venue} (hb : v'.broker.orders = v.broker.orders)
    (hseq : v'.broker.fillSeq = v.broker.fillSeq) (hi : v'.ids = v.ids) (hs : v'.store = v.store) :
    Agrees (d, v') owed :=
  h.frame (Desk.SameOrders.refl d) ⟨hb, hseq, by rw [hi], by rw [hs]⟩
    (by rw [hs]; exact h.books.rows)

/-- **Every action of these sessions keeps the agreement**, with the reports owed that
`Action.owes` gives. -/
theorem step (h : Agrees (d, v) owed) (hm : d.Mapped v.store) (hs : v.SubmitsOnce) {a : Action}
    {owed' : List BrokerFill} (ho : a.owes (d, v) owed = some owed') : Agrees (a.apply (d, v)) owed' := by
  cases a with
  | execute fills report =>
    simp only [Action.owes, Bool.and_eq_true, List.all_eq_true, decide_eq_true_eq] at ho
    split at ho
    · rename_i hcond
      obtain ⟨hpos, hroom⟩ := hcond
      have hf := h.fillAll fills v owed (fun f hf => hpos f hf) hroom
      cases report
      · cases ho
        exact hf
      · simp only [if_true] at ho
        split at ho
        · rename_i hnil
          cases ho
          subst hnil
          rw [List.nil_append, ← List.append_nil (executed _)] at hf
          exact hf.ingest hm.sorted
        · cases ho
    · cases ho
  | ingest fills =>
    simp only [Action.owes] at ho
    split at ho
    · rename_i hpre
      cases ho
      rw [← List.take_append_drop fills.length owed, ← hpre] at h
      exact h.ingest hm.sorted
    · cases ho
  | event orderId ev eventId => cases ho
  | enqueue i => cases ho; exact h.enqueueIntent i
  | targets ts => cases ho; exact h.enqueueAll _
  | dispatch claimant batch => cases ho; exact dispatchOnce_agrees _ claimant batch h hm hs
  | recover => cases ho; exact recoverRun_agrees _ d.runId h hm hs
  | sweep ttl => cases ho; exact sweepStaleClaims_agrees _ ttl h hm hs
  | cancel orderId => cases ho; exact h.cancel hm orderId
  | replace orderId qty limit tif => cases ho; exact h.replace hm orderId qty limit tif
  | marks m => cases ho; exact h.of_desk ⟨rfl, rfl, rfl, rfl⟩
  | arm => cases ho; exact h.arm
  | disarm reason => cases ho; exact h.disarm reason
  | reconcile => cases ho; exact h.reconcile
  | recordReconcile clean => cases ho; exact h.of_desk ⟨rfl, rfl, rfl, rfl⟩
  | advance ns => cases ho; exact h.venue rfl rfl rfl rfl
  | block reason => cases ho; exact h.of_desk ⟨rfl, rfl, rfl, rfl⟩
  | unblock => cases ho; exact h.of_desk ⟨rfl, rfl, rfl, rfl⟩
  | failNext message => cases ho; exact h.venue rfl rfl rfl rfl
  | lookupFail count => cases ho; exact h.venue rfl rfl rfl rfl

/-- **Runs keep the agreement**, with the broker-id invariant and single submissions along. -/
theorem run : ∀ (acts : List Action) (w : World) (owed owed' : List BrokerFill), Agrees w owed →
    w.1.Mapped w.2.store → w.2.SubmitsOnce → Action.owedAfter w owed acts = some owed' →
    Agrees (Action.run w acts) owed'
  | [], _, _, _, h, _, _, ho => by
    cases ho
    exact h
  | a :: acts, w, owed, owed', h, hm, hs, ho => by
    simp only [Action.owedAfter, Option.bind_eq_some_iff] at ho
    obtain ⟨o₁, h₁, h₂⟩ := ho
    exact run acts (a.apply w) o₁ owed' (h.step hm hs h₁) (a.apply_mapped hs hm) (a.apply_submitsOnce w hs) h₂

theorem start (s : DeskSetup) : Agrees s.start [] := by
  have hstart : s.start.1.orders = [] ∧ s.start.1.halted = [] ∧ s.start.1.ledger.lastSeq = none ∧
      s.start.2 = {} := by
    unfold DeskSetup.start
    dsimp only
    split_ifs <;> exact ⟨rfl, rfl, rfl, rfl⟩
  obtain ⟨ho, hh, hl, hv⟩ := hstart
  have hord : ∀ k, s.start.1.order? k = none := fun k => by simp [Desk.order?, ho]
  refine
    { sorted := by rw [ho]; exact List.Pairwise.nil
      halted := fun k hk => by simp [Desk.haltReason?, hh] at hk
      tracked := fun k hk => by rw [hv] at hk; cases hk
      live := fun k o hk => by rw [hord] at hk; cases hk
      seen := fun k o hk => by rw [hord] at hk; cases hk
      books := ?_
      valid := fun f hf => by cases hf
      increasing := List.Pairwise.nil
      above := fun f hf => by cases hf
      made := fun f hf => by cases hf
      counted := fun n hn => by rw [hl] at hn; cases hn
      named := fun f hf => by cases hf
      inbox := fun r hr => by rw [hv] at hr; cases hr }
  rw [hv]
  exact
    { distinct := ⟨List.nodup_nil, List.nodup_nil⟩
      issued := fun p hp => by cases hp
      requests := fun p hp => by cases hp
      rows := fun r hr => by cases hr }

/-- With nothing owed, every live order is mapped to a broker order open under its id. -/
theorem live_open {w : World} (h : Agrees w []) {o : Order} (ho : o ∈ w.1.orders) (hl : o.state.live = true) :
    ∃ b, w.1.ids.brokerId? o.id = some b ∧ (o.id, b) ∈ w.2.broker.openOrders := by
  obtain ⟨p, hp, hid, hopen⟩ := h.live o.id o (Desk.order?_of_mem h.sorted ho) hl
  have hopen : p.isOpen = true := by simpa using hopen
  obtain ⟨hmem, hk⟩ := Paper.mem_of_byClient? hp
  exact ⟨p.brokerId, hid, Paper.mem_openOrders.2 ⟨p, hmem, hopen, by rw [hk]⟩⟩

theorem open_known {w : World} (h : Agrees w owed) {e : String × String} (he : e ∈ w.2.broker.openOrders) :
    knownOrder w.1 w.2.store e.1 = true := by
  obtain ⟨p, hp, -, rfl⟩ := Paper.mem_openOrders.1 he
  have ht := h.tracked p.clientId (List.mem_map_of_mem hp)
  simp [knownOrder, ht]

end Agrees

/-- **Reconcile finds no drift.** In a session from any setup whose executions are at prices and
fees that are not negative, with room in the broker's count, and whose reports are all taken in
by the end, first ones first, a reconcile at the end reports nothing; every live order (working
or partially filled) is mapped to a broker id open at the broker under the order's id, and every
order open at the broker is known to the desk. -/
theorem reconcile_finds_no_drift (s : DeskSetup) (acts : List Action) (h : Action.owedAfter s.start [] acts = some []) :
    (reconcile (Action.run s.start acts)).1 = [] ∧
      (∀ o ∈ (Action.run s.start acts).1.orders, o.state.live = true →
        ∃ b, (Action.run s.start acts).1.ids.brokerId? o.id = some b ∧ (o.id, b) ∈ (Action.run s.start acts).2.broker.openOrders) ∧
      ∀ e ∈ (Action.run s.start acts).2.broker.openOrders,
        knownOrder (Action.run s.start acts).1 (Action.run s.start acts).2.store e.1 = true := by
  have hA := Agrees.run acts s.start [] [] (Agrees.start s) (mapped_start s) (Venue.submitsOnce_empty _ rfl rfl rfl) h
  refine ⟨?_, fun o ho hl => hA.live_open ho hl, fun e he => hA.open_known he⟩
  have hnil := hA.compareBooks_eq_nil
  unfold reconcile
  dsimp only
  split
  · rfl
  · rw [hnil]
    rfl

/-- A session that queues an order, dispatches it, has the broker fill part of it with the
report taken in at once, and reconciles. -/
theorem reconcile_finds_no_drift_after_a_fill :
    let s : DeskSetup :=
      { config := { runId := "run", initialCash := 1000, fresh := 1000, maxGross := 100000, maxPerSymbol := 100000 },
        marks := [("ABC", 10)] }
    let acts : List Action :=
      [.enqueue { symbol := "ABC", side := .buy, quantity := 5 }, .dispatch "worker" 1,
        .execute [{ clientId := "00000000-0001-4000-8000-000000000000", qty := 2, price := 10, fee := 1 }] true,
        .reconcile]
    Action.owedAfter s.start [] acts = some [] ∧ (reconcile (Action.run s.start acts)).1 = [] := by
  intro s acts
  have h : Action.owedAfter s.start [] acts = some [] := by decide +kernel
  exact ⟨h, (reconcile_finds_no_drift s acts h).1⟩

end TradeDesk
