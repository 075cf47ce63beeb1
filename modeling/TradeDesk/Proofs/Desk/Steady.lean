import TradeDesk.Desk.Action
import TradeDesk.Proofs.Store.Inbox
import TradeDesk.Proofs.Broker.Book
/-!
# What the desk's operations leave alone

Most operations of a desk neither submit an order nor take in a fill. Such an operation is
`Steady`: it leaves the venue `Quiet` (the store settles: no row starts waiting and no key is
added, and the broker stays calm: no submit, no new client id), and it leaves the inbox, the
ledger and the desk's run as they were. Cancels, replaces, order events, arming, disarming and
reconciling are steady, each whatever the broker or the order answers.

Taking in fills is quiet but not steady, since it is what changes the inbox and the ledger; and
executing at the broker is quiet.
-/

namespace TradeDesk

namespace Venue

/-- A change of the venue that submits nothing and starts no row waiting. -/
structure Quiet (v v' : Venue) : Prop where
  store : Store.Settles v.store v'.store
  broker : Paper.Calm v.broker v'.broker

theorem Quiet.refl (v : Venue) : Quiet v v := ⟨Store.Settles.refl _, Paper.Calm.refl _⟩

theorem Quiet.trans {v v' v'' : Venue} (h₁ : Quiet v v') (h₂ : Quiet v' v'') : Quiet v v'' :=
  ⟨h₁.store.trans h₂.store, h₁.broker.trans h₂.broker⟩

theorem quiet_of_outbox_eq {v v' : Venue} (ho : v'.store.outbox = v.store.outbox) (hb : v'.broker = v.broker) :
    Quiet v v' :=
  ⟨Store.settles_of_outbox_eq ho, by rw [hb]; exact Paper.Calm.refl _⟩

/-- Forgetting a terminal order acks its row and drops its mapping. -/
theorem quiet_forget (v : Venue) (orderId : String) : Quiet v (v.forget orderId) :=
  ⟨(Store.settles_of_outbox_eq (Store.outbox_removeMapping _ _)).trans (Store.settles_markAcked _ _),
    Paper.Calm.refl _⟩

theorem quiet_forgetAll (orderIds : List String) (v : Venue) : Quiet v (orderIds.foldl Venue.forget v) := by
  induction orderIds generalizing v with
  | nil => exact Quiet.refl v
  | cons id rest ih => exact (quiet_forget v id).trans (ih _)

theorem outbox_discardAll (v : Venue) (messageIds : List String) :
    (v.discardAll messageIds).store.outbox = v.store.outbox := by
  unfold discardAll
  dsimp only
  induction messageIds generalizing v with
  | nil => rfl
  | cons id rest ih =>
    rw [List.foldl_cons]
    exact (ih { v with store := v.store.discard id }).trans (Store.outbox_discard _ _)

theorem recordFills_frame (v : Venue) (runId : String) (fills : List BrokerFill) :
    (v.recordFills runId fills).2.2.store.outbox = v.store.outbox ∧ (v.recordFills runId fills).2.2.broker = v.broker := by
  induction fills generalizing v with
  | nil => exact ⟨rfl, rfl⟩
  | cons f rest ih =>
    obtain ⟨ho, hb⟩ := ih { v with store := (v.store.insertInbox v.now runId f.messageId f.encode).2 }
    unfold recordFills
    dsimp only
    split
    · exact ⟨ho.trans (Store.outbox_insertInbox _ _ _ _ _), hb⟩
    · exact ⟨ho.trans (Store.outbox_insertInbox _ _ _ _ _), hb⟩

theorem quiet_fillAll (v : Venue) (fills : List FillOrder) : Quiet v (v.fillAll fills).2 := by
  induction fills generalizing v with
  | nil => exact Quiet.refl v
  | cons f rest ih =>
    have hf : Quiet v { v with broker := (v.broker.fill f.clientId f.qty f.price f.fee).2 } :=
      ⟨Store.Settles.refl _, v.broker.calm_fill _ _ _ _⟩
    exact hf.trans (ih _)

end Venue

/-- A change of the world that submits nothing, starts no row waiting, and leaves the inbox, the
ledger and the desk's run as they were. -/
structure Steady (w w' : World) : Prop where
  quiet : Venue.Quiet w.2 w'.2
  inbox : w'.2.store.inbox = w.2.store.inbox
  ledger : w'.1.ledger = w.1.ledger
  runId : w'.1.runId = w.1.runId

namespace Steady

theorem refl (w : World) : Steady w w := ⟨Venue.Quiet.refl _, rfl, rfl, rfl⟩

theorem trans {w w' w'' : World} (h₁ : Steady w w') (h₂ : Steady w' w'') : Steady w w'' :=
  ⟨h₁.quiet.trans h₂.quiet, h₂.inbox.trans h₁.inbox, h₂.ledger.trans h₁.ledger, h₂.runId.trans h₁.runId⟩

end Steady

open Venue

/-- A change of the venue alone that keeps the outbox, the inbox and the broker. -/
theorem steady_of_store {d : Desk} {v v' : Venue} (ho : v'.store.outbox = v.store.outbox)
    (hi : v'.store.inbox = v.store.inbox) (hb : v'.broker = v.broker) : Steady (d, v) (d, v') :=
  ⟨quiet_of_outbox_eq ho hb, hi, rfl, rfl⟩

theorem steady_desk {d d' : Desk} (v : Venue) (hl : d'.ledger = d.ledger) (hr : d'.runId = d.runId) :
    Steady (d, v) (d', v) :=
  ⟨Quiet.refl v, rfl, hl, hr⟩

theorem steady_forget (d : Desk) (v : Venue) (orderId : String) : Steady (d, v) (d, v.forget orderId) :=
  ⟨quiet_forget v orderId, Store.inbox_markAcked _ _, rfl, rfl⟩

/-- Applying an order event changes only the desk's orders, halts, pending replaces and ids. -/
theorem books_applyEventCore (d : Desk) (orderId : String) (ev : Event) (eventId : String) :
    (d.applyEventCore orderId ev eventId).2.ledger = d.ledger ∧ (d.applyEventCore orderId ev eventId).2.runId = d.runId := by
  unfold Desk.applyEventCore
  split
  · exact ⟨rfl, rfl⟩
  · split
    · exact ⟨rfl, rfl⟩
    · split
      · exact ⟨rfl, rfl⟩
      · dsimp only
        constructor <;> simp only [apply_ite Desk.ledger, apply_ite Desk.runId, Desk.putOrder, ite_self]

theorem steady_applyEventCore (d : Desk) (v : Venue) (orderId : String) (ev : Event) (eventId : String) :
    Steady (d, v) ((d.applyEventCore orderId ev eventId).2, v) :=
  ⟨Quiet.refl v, rfl, (books_applyEventCore d orderId ev eventId).1, (books_applyEventCore d orderId ev eventId).2⟩

/-! ### Operations -/

theorem steady_cancel (w : World) (orderId : String) : Steady w (cancel w orderId).2.2 := by
  unfold cancel
  split
  rename_i d v
  split
  · exact Steady.refl _
  · split
    · exact Steady.refl _
    · obtain ⟨hs, hb⟩ := v.cancel_spec (d.gates v.now) orderId (some (d.mappingFor orderId))
      have hv : Steady (d, v) (d, (v.cancel (d.gates v.now) orderId (some (d.mappingFor orderId))).2) :=
        ⟨⟨Store.settles_of_outbox_eq (by rw [hs]), hb⟩, by rw [hs], rfl, rfl⟩
      split
      · rename_i f v' heq
        rw [heq] at hv
        exact hv
      · rename_i ack v' heq
        rw [heq] at hv
        dsimp only
        generalize hA : d.applyEventCore orderId ⟨.cancelRequest, 0⟩ "" = A
        obtain ⟨rA, dA⟩ := A
        have h₁ : Steady (d, v) (dA, v') := by
          have := steady_applyEventCore d v' orderId ⟨.cancelRequest, 0⟩ ""
          rw [hA] at this
          exact hv.trans this
        generalize hB : dA.applyEventCore orderId ⟨.cancelAck, 0⟩ ("cancel-ack-" ++ ack.brokerId) = B
        obtain ⟨rB, dB⟩ := B
        have h₂ : Steady (d, v) (dB, v') := by
          have := steady_applyEventCore dA v' orderId ⟨.cancelAck, 0⟩ ("cancel-ack-" ++ ack.brokerId)
          rw [hB] at this
          exact h₁.trans this
        -- the order is forgotten only when the acknowledgement made it terminal
        cases rA with
        | error f => exact h₁
        | ok a =>
          by_cases hc : ack.status = "canceled"
          · cases rB with
            | error f =>
              simp only [hc, if_true]
              exact h₂
            | ok p =>
              simp only [hc, if_true]
              split
              · exact h₂.trans (steady_forget dB v' orderId)
              · exact h₂
          · simp only [hc, if_false]
            exact h₁

theorem steady_replace (w : World) (orderId : String) (qty : Int64) (limit : Option Int64) (tif : String) :
    Steady w (replace w orderId qty limit tif).2.2 := by
  unfold replace
  split
  rename_i d v
  split
  · exact Steady.refl _
  · split
    · exact Steady.refl _
    · dsimp only
      obtain ⟨hs, hb⟩ := v.replace_spec (d.gates v.now) orderId (some (d.mappingFor orderId)) qty limit tif
      have hv : Steady (d, v) (d, (v.replace (d.gates v.now) orderId (some (d.mappingFor orderId)) qty limit tif).2) :=
        ⟨⟨Store.settles_of_outbox_eq (by rw [hs]), hb⟩, by rw [hs], rfl, rfl⟩
      split
      · rename_i f v' heq
        rw [heq] at hv
        exact hv
      · rename_i ack v' heq
        rw [heq] at hv
        have hrecord : ∀ d₁ : Desk, Steady (d, v) (d₁, v') → ∀ v₁ : Venue, Steady (d₁, v') (d₁, v₁) →
            ∀ rA dA, d₁.applyEventCore orderId ⟨.replaceRequest, 0⟩ "" = (rA, dA) →
              Steady (d, v) (dA, v₁) ∧ ∀ r, Steady (d, v) ({ dA with replacing := r }, v₁) := by
          intro d₁ h₁ v₁ hv₁ rA dA hA
          have hA' := steady_applyEventCore d₁ v₁ orderId ⟨.replaceRequest, 0⟩ ""
          rw [hA] at hA'
          have h₂ : Steady (d, v) (dA, v₁) := (h₁.trans hv₁).trans hA'
          exact ⟨h₂, fun _ => h₂.trans (steady_desk v₁ rfl rfl)⟩
        by_cases hmoved : ack.brokerId ≠ "" ∧ ack.brokerId ≠ ((d.mappingFor orderId).brokerId? orderId).getD ""
        · simp only [if_pos hmoved]
          have h := hrecord { d with ids := d.ids.register orderId ack.brokerId } (hv.trans (steady_desk v' rfl rfl))
            { v' with store := v'.store.upsertMapping orderId ack.brokerId }
            (steady_of_store (Store.outbox_upsertMapping _ _ _) (Store.inbox_upsertMapping _ _ _) rfl)
          split
          next _ dA hA => exact (h _ _ hA).2 _
          next f dA hA => exact (h _ _ hA).1
        · simp only [if_neg hmoved]
          have h := hrecord d hv v' (Steady.refl _)
          split
          next _ dA hA => exact (h _ _ hA).2 _
          next f dA hA => exact (h _ _ hA).1

theorem steady_arm (w : World) : Steady w (arm w).2 := by
  unfold arm
  split
  split
  · exact Steady.refl _
  · exact ⟨quiet_of_outbox_eq rfl rfl, rfl, rfl, rfl⟩

theorem steady_disarm (w : World) (reason : String) : Steady w (disarm w reason).2 := by
  unfold disarm
  split
  split
  · exact Steady.refl _
  · exact ⟨quiet_of_outbox_eq rfl rfl, rfl, rfl, rfl⟩

theorem steady_reconcile (w : World) : Steady w (reconcile w).2 := by
  unfold reconcile
  split
  rename_i d v
  split
  · exact steady_desk v rfl rfl
  · dsimp only
    split
    · exact steady_desk v rfl rfl
    · dsimp only
      have h₁ : Steady (d, v) ({ d with guard := d.guard.record v.now false }, v) := steady_desk v rfl rfl
      exact h₁.trans (steady_disarm _ _)

theorem steady_applyEvent (w : World) (orderId : String) (ev : Event) (eventId : String) :
    Steady w (applyEvent w orderId ev eventId).2 := by
  unfold applyEvent
  split
  rename_i d v
  have hA := steady_applyEventCore d v orderId ev eventId
  generalize d.applyEventCore orderId ev eventId = A at hA ⊢
  obtain ⟨rA, dA⟩ := A
  cases rA with
  | error f => exact hA
  | ok p =>
    dsimp only
    split
    · exact hA.trans (steady_forget dA v orderId)
    · exact hA

/-! ### Queuing -/

/-- Queuing an intent changes neither the desk nor the broker; the store stays as it was, or is
the one an accepted enqueue of some row made of it. -/
theorem enqueueIntent_cases (w : World) (i : Intent) :
    (enqueueIntent w i).2.1 = w.1 ∧ (enqueueIntent w i).2.2.broker = w.2.broker ∧
      ((enqueueIntent w i).2.2.store = w.2.store ∨
        ∃ now runId key json b, w.2.store.enqueue now runId key json = .ok (b, (enqueueIntent w i).2.2.store)) := by
  unfold enqueueIntent
  split
  rename_i d v
  split
  · exact ⟨rfl, rfl, .inl rfl⟩
  · split
    · exact ⟨rfl, rfl, .inl rfl⟩
    · split
      rename_i i' v' heq
      have hv : v'.store = v.store ∧ v'.broker = v.broker := by
        split at heq
        · cases heq; exact ⟨rfl, rfl⟩
        · cases heq; exact ⟨rfl, rfl⟩
      dsimp only
      split
      · exact ⟨rfl, hv.2, .inl hv.1⟩
      · split
        · exact ⟨rfl, hv.2, .inl hv.1⟩
        · rename_i created store he
          rw [hv.1] at he
          exact ⟨rfl, hv.2, .inr ⟨_, _, _, _, _, he⟩⟩

/-! ### Taking in fills -/

theorem quiet_applyFills (w : World) (fills : List BrokerFill) : Quiet w.2 (applyFills w fills).2.2 := by
  unfold applyFills
  split
  rename_i d v
  split
  · exact Quiet.refl _
  · split
    · exact Quiet.refl _
    · dsimp only
      exact (quiet_forgetAll _ v).trans (quiet_of_outbox_eq (Store.outbox_markAppliedAll _ _ _) rfl)

theorem quiet_ingestFills (w : World) (fills : List BrokerFill) : Quiet w.2 (ingestFills w fills).2.2 := by
  unfold ingestFills
  split
  · exact Quiet.refl _
  · split
    rename_i d v
    obtain ⟨ho, hb⟩ := recordFills_frame v d.runId fills
    have h₁ := (quiet_of_outbox_eq ho hb).trans
      (quiet_applyFills (d, (v.recordFills d.runId fills).2.2) (v.recordFills d.runId fills).1)
    split
    rename_i fresh dups v' hrec
    rw [hrec] at h₁
    split
    · rename_i n w' heq
      rw [heq] at h₁
      exact h₁
    · rename_i f d' v'' heq
      rw [heq] at h₁
      exact h₁.trans ((quiet_of_outbox_eq (outbox_discardAll _ _) rfl).trans (steady_disarm (_, _) _).quiet)

end TradeDesk
