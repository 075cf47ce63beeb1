import TradeDesk.Proofs.Store.Inbox
import TradeDesk.Proofs.Broker.Book
import TradeDesk.Dispatch.Once
/-!
# What the passes leave alone

The dispatcher, recovery and the sweeper walk rows read at their start. Every step of the walk is
one of four kinds: a change of the outbox, which never touches the inbox; a lookup at the broker;
a submit through the gateway, which only the dispatcher and recovery make; and a report of a
submission to the sink, between marking its row sent and acked.

`PassFrame R sink` says that a reflexive and transitive relation `R` between worlds holds across
each kind of step but the submit. The lemmas of this section follow the passes' recursion and give
`R` across a whole pass, given, for the dispatcher and recovery, that it also holds across a
submit at the pass's gates. Two relations use it. `Keeps p` relates two worlds with the same inbox
and the same `p` of the sink's state: every pass keeps what its sink keeps. And a broker book that
nothing changed holds across every pass while a gate is closed (`Proofs/Desk/Gates`).
-/

namespace TradeDesk

section Passes

variable {σ : Type}

/-- A reflexive and transitive relation between worlds that holds across every kind of step of a
pass other than a submit. -/
structure PassFrame (R : σ × Venue → σ × Venue → Prop) (sink : Sink σ) : Prop where
  refl : ∀ w, R w w
  trans : ∀ {w w' w''}, R w w' → R w' w'' → R w w''
  /-- A change of the store that keeps the inbox. -/
  outbox : ∀ (w : σ × Venue) (s : Store), s.inbox = w.2.store.inbox → R w (w.1, { w.2 with store := s })
  lookup : ∀ (w : σ × Venue) (k : String), R w (w.1, (w.2.lookup k).2)
  sink : ∀ intent ack w, R w (sink intent ack w).2

namespace PassFrame

variable {R : σ × Venue → σ × Venue → Prop} {sink : Sink σ} (hR : PassFrame R sink)
include hR

theorem complete (intent : Intent) (ack : BrokerAck) (w : σ × Venue) :
    R w (TradeDesk.complete sink intent ack w).2 := by
  have h₁ : R w (w.1, w.2.markSent intent.key) := hR.outbox w _ (Store.inbox_markSent _ _ _)
  have h₂ := hR.trans h₁ (hR.sink intent ack (w.1, w.2.markSent intent.key))
  unfold TradeDesk.complete
  dsimp only
  split
  · rename_i f w' heq
    rw [heq] at h₂
    exact h₂
  · rename_i w' heq
    rw [heq] at h₂
    exact hR.trans h₂ (hR.outbox w' _ (Store.inbox_markAcked _ _))

theorem releaseRows (x : σ) (rows : List OutboxRow) (v : Venue) : R (x, v) (x, (TradeDesk.releaseRows rows v).2) := by
  unfold TradeDesk.releaseRows
  refine List.foldlRecOn (motive := fun q : Nat × Venue => R (x, v) (x, q.2)) rows _ (hR.refl _) ?_
  intro q hq r _
  exact hR.trans hq (hR.outbox (x, q.2) _ (Store.inbox_release _ _))

/-! ### The dispatcher -/

variable {gs : Gates}

theorem dispatchRow (hsubmit : ∀ (w : σ × Venue) claim req, R w (w.1, (w.2.submit gs claim req).2))
    (row : OutboxRow) (w : σ × Venue) : R w (TradeDesk.dispatchRow gs sink row w).2 := by
  have hfailed : R w (w.1, { w.2 with store := (w.2.store.markFailed row.key).2 }) :=
    hR.outbox w _ (Store.inbox_markFailed _ _)
  unfold TradeDesk.dispatchRow
  dsimp only
  split
  · rename_i intent _
    split
    · exact hfailed
    · split
      · exact hR.refl w
      · rename_i claim _
        have hv := hsubmit w claim { intent with key := row.key }
        split
        · rename_i f v heq
          rw [heq] at hv
          exact hv
        · rename_i ack v heq
          rw [heq] at hv
          have hc := hR.trans hv (hR.complete { intent with key := row.key } ack (w.1, v))
          split
          · rename_i w' heq'
            rw [heq'] at hc
            exact hc
          · rename_i f w' heq'
            rw [heq'] at hc
            exact hc
  · exact hfailed

theorem dispatchRows (hsubmit : ∀ (w : σ × Venue) claim req, R w (w.1, (w.2.submit gs claim req).2)) :
    ∀ (rows : List OutboxRow) (res : DispatchResult) (w : σ × Venue), R w (TradeDesk.dispatchRows gs sink rows res w).2 := by
  intro rows
  induction rows with
  | nil => intro res w; exact hR.refl w
  | cons row rest ih =>
    intro res w
    have h₁ := hR.dispatchRow hsubmit row w
    simp only [TradeDesk.dispatchRows]
    split
    · rename_i w' heq; rw [heq] at h₁; exact hR.trans h₁ (ih _ w')
    · rename_i w' heq; rw [heq] at h₁; exact hR.trans h₁ (ih _ w')
    · rename_i w' heq; rw [heq] at h₁; exact hR.trans h₁ (ih _ w')
    · rename_i w' heq; rw [heq] at h₁; exact hR.trans h₁ (hR.releaseRows w'.1 _ w'.2)

theorem dispatchOnce (hsubmit : ∀ (w : σ × Venue) claim req, R w (w.1, (w.2.submit gs claim req).2))
    (claimant : String) (batch : Int) (w : σ × Venue) : R w (TradeDesk.dispatchOnce gs sink claimant batch w).2 := by
  unfold TradeDesk.dispatchOnce
  dsimp only
  exact hR.trans (hR.outbox w _ (Store.inbox_claimBatch _ _ _ _)) (hR.dispatchRows hsubmit _ _ _)

/-! ### Recovery and the sweeper -/

theorem recoverRows (hsubmit : ∀ (w : σ × Venue) claim req, R w (w.1, (w.2.submit gs claim req).2)) :
    ∀ (rows : List OutboxRow) (rep : RecoveryReport) (w : σ × Venue), R w (TradeDesk.recoverRows gs sink rows rep w).2 := by
  intro rows
  induction rows with
  | nil => intro rep w; exact hR.refl w
  | cons row rest ih =>
    intro rep w
    simp only [TradeDesk.recoverRows]
    split
    · exact ih _ w
    · split
      · exact ih _ w
      · rename_i intent _
        have hlook := hR.lookup w row.key
        split
        · rename_i f v hv
          rw [hv] at hlook
          exact hlook
        · rename_i id v hv
          rw [hv] at hlook
          have h₁ := hR.trans hlook (hR.complete { intent with key := row.key } (recoveredAck id v.now) (w.1, v))
          split
          · rename_i f w' heq
            rw [heq] at h₁
            exact h₁
          · rename_i w' heq
            rw [heq] at h₁
            exact hR.trans h₁ (ih _ w')
        · rename_i v hv
          rw [hv] at hlook
          generalize Claim.ofRow (some row) = c
          cases c with
          | error f =>
            dsimp only
            split
            · exact hR.trans hlook (ih _ _)
            · exact hlook
          | ok claim =>
            dsimp only
            have hsub := hR.trans hlook (hsubmit (w.1, v) claim { intent with key := row.key })
            split
            · rename_i f v' heq
              rw [heq] at hsub
              split
              · exact hR.trans hsub (ih _ _)
              · exact hsub
            · rename_i ack v' heq
              rw [heq] at hsub
              have h₁ := hR.trans hsub (hR.complete { intent with key := row.key } ack (w.1, v'))
              split
              · rename_i f w' heq'
                rw [heq'] at h₁
                exact h₁
              · rename_i w' heq'
                rw [heq'] at h₁
                exact hR.trans h₁ (ih _ w')

theorem recoverRun (hsubmit : ∀ (w : σ × Venue) claim req, R w (w.1, (w.2.submit gs claim req).2))
    (runId : String) (w : σ × Venue) : R w (TradeDesk.recoverRun gs sink runId w).2 :=
  hR.recoverRows hsubmit _ _ w

theorem sweepRows (now : Instant) :
    ∀ (rows : List OutboxRow) (rep : RecoveryReport) (w : σ × Venue), R w (TradeDesk.sweepRows sink now rows rep w).2 := by
  intro rows
  induction rows with
  | nil => intro rep w; exact hR.refl w
  | cons row rest ih =>
    intro rep w
    have hlook := hR.lookup w row.key
    simp only [TradeDesk.sweepRows]
    split
    · rename_i f v hv
      rw [hv] at hlook
      exact hR.trans hlook (ih _ _)
    · rename_i v hv
      rw [hv] at hlook
      have hrel := hR.outbox (w.1, v) (v.store.release row.key).2 (Store.inbox_release _ _)
      exact hR.trans (hR.trans hlook hrel) (ih _ _)
    · rename_i id v hv
      rw [hv] at hlook
      split
      · exact hR.trans hlook (ih _ _)
      · rename_i intent _
        have h₁ := hR.trans hlook (hR.complete { intent with key := row.key } (recoveredAck id now) (w.1, v))
        split
        · rename_i f w' heq
          rw [heq] at h₁
          exact h₁
        · rename_i w' heq
          rw [heq] at h₁
          exact hR.trans h₁ (ih _ w')

theorem sweepStaleClaims (now : Instant) (ttl : Int64) (w : σ × Venue) :
    R w (TradeDesk.sweepStaleClaims sink now ttl w).2 :=
  hR.sweepRows now _ _ w

end PassFrame

end Passes

section Frame

variable {σ β : Type} (p : σ → β)

/-- Two worlds with the same inbox and the same `p` of the sink's state. -/
structure Keeps (w w' : σ × Venue) : Prop where
  state : p w'.1 = p w.1
  inbox : w'.2.store.inbox = w.2.store.inbox

theorem Keeps.refl (w : σ × Venue) : Keeps p w w := ⟨rfl, rfl⟩

variable {p} in
theorem Keeps.trans {w w' w'' : σ × Venue} (h₁ : Keeps p w w') (h₂ : Keeps p w' w'') : Keeps p w w'' :=
  ⟨h₂.state.trans h₁.state, h₂.inbox.trans h₁.inbox⟩

/-- A sink that keeps the inbox and `p` of its state. -/
def Sink.Keeps (sink : Sink σ) : Prop := ∀ intent ack w, TradeDesk.Keeps p w (sink intent ack w).2

theorem keeps_venue (w : σ × Venue) (v : Venue) (h : v.store.inbox = w.2.store.inbox) : Keeps p w (w.1, v) :=
  ⟨rfl, h⟩

theorem keeps_submit (gs : Gates) (w : σ × Venue) (claim : Claim) (req : Intent) :
    Keeps p w (w.1, (w.2.submit gs claim req).2) :=
  keeps_venue p w _ (by rw [(w.2.submit_spec gs claim req).1])

/-! ### The passes -/

variable {sink : Sink σ} (hsink : sink.Keeps p)
include hsink

/-- What the sink keeps, every step of a pass keeps. -/
theorem passFrame_keeps : PassFrame (Keeps p) sink where
  refl := Keeps.refl p
  trans := Keeps.trans
  outbox := fun w _ h => keeps_venue p w _ h
  lookup := fun w k => keeps_venue p w _ (by rw [w.2.lookup_store k])
  sink := hsink

theorem keeps_dispatchOnce (gs : Gates) (claimant : String) (batch : Int) (w : σ × Venue) :
    Keeps p w (dispatchOnce gs sink claimant batch w).2 :=
  (passFrame_keeps p hsink).dispatchOnce (keeps_submit p gs) claimant batch w

theorem keeps_recoverRun (gs : Gates) (runId : String) (w : σ × Venue) : Keeps p w (recoverRun gs sink runId w).2 :=
  (passFrame_keeps p hsink).recoverRun (keeps_submit p gs) runId w

theorem keeps_sweepStaleClaims (now : Instant) (ttl : Int64) (w : σ × Venue) :
    Keeps p w (sweepStaleClaims sink now ttl w).2 :=
  (passFrame_keeps p hsink).sweepStaleClaims now ttl w

end Frame

end TradeDesk
