import TradeDesk.Proofs.Desk.Gates
import TradeDesk.Proofs.Desk.Refusal
/-!
# The limiter follows the book

The desk's controls are what its gates and its risk limiter are made of: the ledger, the marks, the
arm state, the freshness of the last reconcile and the limiter itself. The order operations (an
order event, a cancel, a replace, the feed of a batch of fills to the orders, and the desk as the
sink of a pass) change only the orders, their broker ids, the halts and the pending replaces, so
they keep the controls, and so does every action on the outbox, the clock or the broker alone
(`Action.controls_apply_of_onOrders`).

The limiter keeps its own copy of the positions and marks, and `RiskCurrent` says the copy is the
ledger's positions and the desk's marks. Only taking in fills changes the ledger, and only setting
marks changes the marks; both end by handing the limiter the new book. Blocking and unblocking
touch only the switch. So every action keeps the copy current, a restart starts with an empty
ledger, no marks and a fresh limiter and replays its fills through the same path, and the limiter
of every reachable desk is current (`limiter_follows_book`).
-/

namespace TradeDesk

/-! ### The controls of a desk -/

/-- What the gates and the limiter's book are made of. -/
def Desk.controls (d : Desk) : Ledger × Marks × ArmState × Freshness × Limiter :=
  (d.ledger, d.marks, d.arm, d.guard, d.limiter)

theorem Desk.controls_eq_iff {d d' : Desk} :
    d'.controls = d.controls ↔
      d'.ledger = d.ledger ∧ d'.marks = d.marks ∧ d'.arm = d.arm ∧ d'.guard = d.guard ∧ d'.limiter = d.limiter := by
  simp only [controls, Prod.mk.injEq]

/-- An order event changes only the orders, the halts, the pending replaces and the broker ids. -/
theorem controls_applyEventCore (d : Desk) (orderId : String) (ev : Event) (eventId : String) :
    (d.applyEventCore orderId ev eventId).2.controls = d.controls := by
  unfold Desk.applyEventCore
  split
  · rfl
  · split
    · rfl
    · split
      · rfl
      · dsimp only
        split_ifs <;> rfl

theorem controls_of_applyEventCore {d d' : Desk} {orderId : String} {ev : Event} {eventId : String}
    {r : Except Fault (Order × Bool)} (h : d.applyEventCore orderId ev eventId = (r, d')) : d'.controls = d.controls := by
  have h₁ := controls_applyEventCore d orderId ev eventId
  rw [h] at h₁
  exact h₁

theorem controls_feedFills (fs : List BrokerFill) : ∀ d : Desk, (d.feedFills fs).2.controls = d.controls := by
  induction fs with
  | nil => intro d; rfl
  | cons f rest ih =>
    intro d
    unfold Desk.feedFills
    split
    · exact ih d
    · split
      · rename_i dA hA
        exact (ih dA).trans (controls_of_applyEventCore hA)
      · rename_i dA _ hA
        exact (ih dA).trans (controls_of_applyEventCore hA)

theorem controls_applyEvent (w : World) (orderId : String) (ev : Event) (eventId : String) :
    (applyEvent w orderId ev eventId).2.1.controls = w.1.controls := by
  obtain ⟨d, v⟩ := w
  unfold applyEvent
  dsimp only
  split
  · rename_i dA hA
    exact controls_of_applyEventCore hA
  · rename_i dA hA
    exact controls_of_applyEventCore hA

theorem controls_cancel (w : World) (orderId : String) : (cancel w orderId).2.2.1.controls = w.1.controls := by
  obtain ⟨d, v⟩ := w
  unfold cancel
  dsimp only
  split
  · rfl
  · split
    · rfl
    · split
      · rfl
      · rename_i ack v' _
        have h₁ := controls_applyEventCore d orderId ⟨.cancelRequest, 0⟩ ""
        generalize d.applyEventCore orderId ⟨.cancelRequest, 0⟩ "" = A at h₁ ⊢
        obtain ⟨rA, dA⟩ := A
        have h₂ := (controls_applyEventCore dA orderId ⟨.cancelAck, 0⟩ ("cancel-ack-" ++ ack.brokerId)).trans h₁
        generalize dA.applyEventCore orderId ⟨.cancelAck, 0⟩ ("cancel-ack-" ++ ack.brokerId) = B at h₂ ⊢
        obtain ⟨rB, dB⟩ := B
        cases rA with
        | error f => exact h₁
        | ok p =>
          dsimp only
          split_ifs
          · cases rB with
            | error f => exact h₂
            | ok q => split <;> exact h₂
          · exact h₁

theorem controls_replace (w : World) (orderId : String) (qty : Int64) (limit : Option Int64) (tif : String) :
    (replace w orderId qty limit tif).2.2.1.controls = w.1.controls := by
  obtain ⟨d, v⟩ := w
  unfold replace
  dsimp only
  split
  · rfl
  · split
    · rfl
    · split
      · rfl
      · split_ifs <;>
        · split
          · rename_i hA
            have h₁ := controls_of_applyEventCore hA
            exact h₁
          · rename_i hA
            have h₁ := controls_of_applyEventCore hA
            exact h₁

/-- The desk as the sink of a pass registers broker ids and orders, and keeps its controls. -/
theorem onSubmitted_keeps_controls : onSubmitted.Keeps Desk.controls := by
  rintro intent ack ⟨d, v⟩
  refine ⟨?_, Store.inbox_upsertMapping _ _ _⟩
  simp only [onSubmitted]
  split <;> rfl

theorem controls_restoreOrders (d : Desk) (s : Store) : (d.restoreOrders s).controls = d.controls := by
  unfold Desk.restoreOrders
  refine List.foldlRecOn (motive := fun d' : Desk => d'.controls = d.controls) s.mappings _ rfl ?_
  intro d' hd' e _
  split
  · exact hd'
  · split
    · exact hd'
    · split
      · exact hd'
      · exact hd'

/-! ### The order operations -/

/-- The actions that work on the outbox, the orders, the clock or the broker alone. -/
def Action.onOrders : Action → Bool
  | .enqueue _ | .targets _ | .dispatch _ _ | .recover | .sweep _ | .event _ _ _ | .cancel _ | .replace _ _ _ _
  | .advance _ | .failNext _ | .lookupFail _ => true
  | _ => false

theorem Action.controls_apply_of_onOrders {a : Action} (h : a.onOrders = true) (w : World) :
    (a.apply w).1.controls = w.1.controls := by
  obtain ⟨d, v⟩ := w
  cases a with
  | enqueue i => rw [Action.apply, (enqueueIntent_cases _ i).1]
  | targets ts => rw [Action.apply, enqueueTargets, (enqueueAll_keeps _ _).1]
  | dispatch claimant batch =>
    exact (keeps_dispatchOnce _ onSubmitted_keeps_controls (d.gates v.now) claimant batch _).state
  | recover => exact (keeps_recoverRun _ onSubmitted_keeps_controls (d.gates v.now) d.runId _).state
  | sweep ttl => exact (keeps_sweepStaleClaims _ onSubmitted_keeps_controls _ ttl _).state
  | event orderId ev eventId => exact controls_applyEvent _ orderId ev eventId
  | cancel orderId => exact controls_cancel _ orderId
  | replace orderId qty limit tif => exact controls_replace _ orderId qty limit tif
  | advance _ | failNext _ | lookupFail _ => rfl
  | _ => cases h

/-! ### The limiter's copy of the book -/

/-- The limiter holds the ledger's positions and the desk's marks. -/
structure Desk.RiskCurrent (d : Desk) : Prop where
  holdings : d.limiter.holdings = d.ledger.standing.holdings
  marks : d.limiter.marks = d.marks

namespace Desk.RiskCurrent

variable {d d' : Desk}

theorem of_controls (h : d.RiskCurrent) (hc : d'.controls = d.controls) : d'.RiskCurrent := by
  obtain ⟨hl, hm, -, -, hlim⟩ := Desk.controls_eq_iff.1 hc
  exact ⟨by rw [hlim, hl, h.holdings], by rw [hlim, hm, h.marks]⟩

theorem refreshLimiter (d : Desk) : d.refreshLimiter.RiskCurrent := ⟨rfl, rfl⟩

/-- Taking in fills hands the limiter the new book when the ledger accepts, and changes nothing the
limiter reads when it refuses. -/
theorem applyFills {w : World} (h : w.1.RiskCurrent) (fills : List BrokerFill) :
    (TradeDesk.applyFills w fills).2.1.RiskCurrent := by
  obtain ⟨d, v⟩ := w
  unfold TradeDesk.applyFills
  dsimp only
  split
  · exact h
  · split
    · exact h
    · exact refreshLimiter _

theorem ingestFills {w : World} (h : w.1.RiskCurrent) (fills : List BrokerFill) :
    (TradeDesk.ingestFills w fills).2.1.RiskCurrent := by
  obtain ⟨d, v⟩ := w
  unfold TradeDesk.ingestFills
  split
  · exact h
  · dsimp only
    have h₁ := applyFills (show (d, (v.recordFills d.runId fills).2.2).1.RiskCurrent from h) (v.recordFills d.runId fills).1
    split
    · rename_i n w' heq
      rw [heq] at h₁
      exact h₁
    · -- a refused batch disarms, which the limiter does not read
      rename_i f d' v' heq
      rw [heq] at h₁
      exact ⟨h₁.holdings, h₁.marks⟩

theorem applyInDoubt (fills : List BrokerFill) : ∀ {w : World}, w.1.RiskCurrent → (TradeDesk.applyInDoubt w fills).1.RiskCurrent := by
  induction fills with
  | nil => intro w h; exact h
  | cons f rest ih =>
    intro w h
    have h₁ := applyFills h [f]
    unfold TradeDesk.applyInDoubt
    split
    · rename_i n w' heq
      rw [heq] at h₁
      exact ih h₁
    · rename_i e d' v' heq
      rw [heq] at h₁
      exact ih h₁

/-- A desk restored from the store keeps the limiter current through every fill it replays. -/
theorem restore (h : d.RiskCurrent) (v : Venue) : (TradeDesk.restore (d, v)).2.1.RiskCurrent := by
  unfold TradeDesk.restore
  dsimp only
  have h₀ := h.of_controls (controls_restoreOrders d v.store)
  generalize d.restoreOrders v.store = d₁ at h₀ ⊢
  split
  · exact h₀
  · rename_i accepted doubt v' _
    have h₁ := applyFills (show (d₁, v').1.RiskCurrent from h₀) accepted
    split
    · rename_i f w' heq
      rw [heq] at h₁
      exact h₁
    · rename_i n w' heq
      rw [heq] at h₁
      exact applyInDoubt _ h₁

end Desk.RiskCurrent

theorem riskCurrent_boot (c : DeskConfig) (p : Option ArmState) : (Desk.boot c p).RiskCurrent := ⟨rfl, rfl⟩

theorem riskCurrent_restart (c : DeskConfig) (w : World) : (restart c w).2.1.RiskCurrent :=
  (riskCurrent_boot c w.2.store.arm).restore w.2

theorem Action.riskCurrent (a : Action) {w : World} (h : w.1.RiskCurrent) : (a.apply w).1.RiskCurrent := by
  by_cases ho : a.onOrders = true
  · exact h.of_controls (Action.controls_apply_of_onOrders ho w)
  obtain ⟨d, v⟩ := w
  cases a with
  | execute fills report =>
    cases report
    · exact h
    · exact Desk.RiskCurrent.ingestFills (show (d, (v.fillAll fills).2).1.RiskCurrent from h) _
  | ingest fills => exact h.ingestFills fills
  | marks m => exact Desk.RiskCurrent.refreshLimiter _
  | arm =>
    show (TradeDesk.arm (d, v)).2.1.RiskCurrent
    unfold TradeDesk.arm
    dsimp only
    split <;> exact ⟨h.holdings, h.marks⟩
  | disarm reason =>
    show (TradeDesk.disarm (d, v) reason).2.1.RiskCurrent
    unfold TradeDesk.disarm
    dsimp only
    split <;> exact ⟨h.holdings, h.marks⟩
  | reconcile =>
    show (TradeDesk.reconcile (d, v)).2.1.RiskCurrent
    unfold TradeDesk.reconcile TradeDesk.disarm
    dsimp only
    split
    · exact ⟨h.holdings, h.marks⟩
    · split
      · exact ⟨h.holdings, h.marks⟩
      · split <;> exact ⟨h.holdings, h.marks⟩
  | recordReconcile _ | block _ | unblock => exact ⟨h.holdings, h.marks⟩
  | _ => exact absurd rfl ho

/-- Every desk a session can reach, across restarts, has its limiter current. -/
theorem Reachable.riskCurrent {w : World} (hw : Reachable w) : w.1.RiskCurrent := by
  induction hw with
  | start s =>
    unfold DeskSetup.start
    exact Desk.RiskCurrent.refreshLimiter _
  | step a _ ih => exact a.riskCurrent ih
  | restart c _ _ => exact riskCurrent_restart c _

/-- **The limiter follows the book.** In every world a desk can reach, from the start of a session
through any actions and restarts, the risk limiter holds the ledger's positions and the desk's
marks: it is the limiter updated with them. So the risk gate is open exactly when the limiter is
not blocked and the gross exposure of the ledger's positions at the desk's marks is within the
gross cap, or there is none. -/
theorem limiter_follows_book {w : World} (hw : Reachable w) :
    w.1.limiter.holdings = w.1.ledger.standing.holdings ∧ w.1.limiter.marks = w.1.marks ∧
      w.1.limiter = w.1.limiter.update w.1.ledger.standing.holdings w.1.marks ∧
      (w.1.limiter.allowed = true ↔ w.1.limiter.blocked = "" ∧
        (w.1.limiter.maxGross ≤ 0 ∨ (w.1.ledger.standing.holdings.exposure w.1.marks).gross ≤ w.1.limiter.maxGross)) := by
  obtain ⟨hh, hm⟩ := hw.riskCurrent
  refine ⟨hh, hm, ?_, ?_⟩
  · rw [← hh, ← hm]
    rfl
  · rw [Limiter.allowed_iff, Limiter.Admits, hh, hm]

/-- A desk that took a fill at a mark and then restarted: the new desk's limiter holds the book
replayed from the inbox, at no marks. -/
theorem limiter_follows_book_after_a_restart :
    let c : DeskConfig := { runId := "run", initialCash := 1000, fresh := 60, maxGross := 0, maxPerSymbol := 0 }
    let f : BrokerFill := { messageId := "m1", seq := 1, orderId := "o1", symbol := "ABC", side := .buy, qty := 2, price := 5 }
    let w := (restart c (Action.run ({ config := c } : DeskSetup).start [.marks [("ABC", 5)], .ingest [f]])).2
    Reachable w ∧ w.1.limiter.holdings = w.1.ledger.standing.holdings ∧ w.1.limiter.marks = w.1.marks ∧
      w.1.limiter = w.1.limiter.update w.1.ledger.standing.holdings w.1.marks ∧
      (w.1.limiter.allowed = true ↔ w.1.limiter.blocked = "" ∧
        (w.1.limiter.maxGross ≤ 0 ∨ (w.1.ledger.standing.holdings.exposure w.1.marks).gross ≤ w.1.limiter.maxGross)) := by
  intro c f w
  have hw : Reachable w := .restart c (.run (.start _) _)
  exact ⟨hw, limiter_follows_book hw⟩

end TradeDesk
