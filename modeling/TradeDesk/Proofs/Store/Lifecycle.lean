import TradeDesk.Proofs.Store.Inbox
import Mathlib.Data.List.Forall2
/-!
# The lifecycle of an outbox row

What every run of store operations keeps, from an empty store on, whatever the keys, payloads,
limits, claimants, cutoffs and clock times.

* Each key names one outbox row, and no row has the empty key. Outbox and inbox rows take their
  ids from one counter: the ids of each table increase in the order of its rows, no id is in both
  tables, and a row added later has a larger id than every row there before it.
* An operation keeps each outbox row or moves it as `Store.RowMove` says: a claim takes a pending
  row, a release returns a claimed row to pending, a claimed row is marked sent or failed, and a
  row in any status is marked acked. So a status changes only along those edges
  (`Store.StatusMove`), an acked row stays acked, and a send time once stamped stays.
* The stamps of a row agree with its status (`OutboxRow.Stamped`).
* A transition that answers false, and an enqueue under a key that has a row, change nothing.

The outbox of a step is read once, by `Store.outbox_perform`, and the ids once, by
`Store.ids_perform`; the invariant `Store.Sound` and the main theorem are proved from those two.
Reads answer from the store and leave it as it is.
-/

namespace TradeDesk

namespace OutboxRow

/-- The stamps a row carries in its status. -/
structure Stamped (r : OutboxRow) : Prop where
  /-- A pending row has no claimant, claim time or send time. -/
  pending : r.status = .pending → r.claimedBy = none ∧ r.claimedAt = none ∧ r.sentAt = none
  /-- A claimed row has its claimant and its claim time, and no send time. -/
  claimed : r.status = .claimed → r.claimedBy.isSome ∧ r.claimedAt.isSome ∧ r.sentAt = none
  /-- A sent row has its claim time and its send time. -/
  sent : r.status = .sent → r.claimedAt.isSome ∧ r.sentAt.isSome

end OutboxRow

namespace Store

/-! ### Operations and runs -/

/-- The operations of a store: the writes to the outbox, the inbox and the settings, and the
reads. -/
inductive Op where
  | enqueue (now : Instant) (runId key orderJson : String)
  | claim (now : Instant) (limit : Int) (claimant : String)
  | release (key : String)
  | markSent (now : Instant) (key : String)
  | markAcked (key : String)
  | markFailed (key : String)
  | fetch (key : String)
  | unacked (runId : String)
  | staleClaims (cutoff : Instant)
  | insertInbox (now : Instant) (runId messageId messageJson : String)
  | markApplied (now : Instant) (messageId : String)
  | discard (messageId : String)
  | inboxOf (runId : String)
  | unappliedOf (runId : String)
  | saveArm (a : ArmState)
  | loadArm
  | upsertMapping (internalId brokerId : String)
  | removeMapping (internalId : String)
  | loadMappings

/-- The store an operation leaves; a refused operation and a read leave it as it was. -/
def Op.perform : Op → Store → Store
  | .enqueue now runId key json, s =>
    match s.enqueue now runId key json with
    | .ok (_, s') => s'
    | .error _ => s
  | .claim now limit claimant, s => (s.claimBatch now limit claimant).2
  | .release key, s => (s.release key).2
  | .markSent now key, s => (s.markSent now key).2
  | .markAcked key, s => (s.markAcked key).2
  | .markFailed key, s => (s.markFailed key).2
  | .insertInbox now runId messageId json, s => (s.insertInbox now runId messageId json).2
  | .markApplied now messageId, s => s.markAppliedOrSame now messageId
  | .discard messageId, s => s.discard messageId
  | .saveArm a, s => s.saveArm a
  | .upsertMapping internalId brokerId, s => s.upsertMapping internalId brokerId
  | .removeMapping internalId, s => s.removeMapping internalId
  | .fetch _, s | .unacked _, s | .staleClaims _, s | .inboxOf _, s | .unappliedOf _, s | .loadArm, s
  | .loadMappings, s => s

/-- The store after operations, in order. -/
def run (s : Store) (ops : List Op) : Store := ops.foldl (fun s op => op.perform s) s

@[simp] theorem run_nil (s : Store) : s.run [] = s := rfl

@[simp] theorem run_cons (s : Store) (op : Op) (ops : List Op) : s.run (op :: ops) = (op.perform s).run ops := rfl

theorem run_append (s : Store) (xs ys : List Op) : s.run (xs ++ ys) = (s.run xs).run ys := by
  simp only [run, List.foldl_append]

/-- The ids of the outbox rows, then of the inbox rows. -/
def ids (s : Store) : List Nat := s.outbox.map (·.id) ++ s.inbox.map (·.id)

/-! ### How one row moves -/

/-- The status changes an operation may make to the row of a key: a claim takes a pending row, a
release returns a claimed row of its key to pending, a claimed row of its key is marked sent or
failed, and a row of its key in any status is marked acked. -/
inductive StatusMove : Op → String → OutboxStatus → OutboxStatus → Prop
  | claim {now : Instant} {limit : Int} {claimant k : String} : StatusMove (.claim now limit claimant) k .pending .claimed
  | release {key : String} : StatusMove (.release key) key .claimed .pending
  | markSent {now : Instant} {key : String} : StatusMove (.markSent now key) key .claimed .sent
  | markFailed {key : String} : StatusMove (.markFailed key) key .claimed .failed
  | markAcked {key : String} {s : OutboxStatus} : StatusMove (.markAcked key) key s .acked

theorem StatusMove.of_acked {op : Op} {k : String} {s' : OutboxStatus} (h : StatusMove op k .acked s') : s' = .acked := by
  cases h
  rfl

/-- What an operation does to an outbox row it moves. -/
inductive RowMove : Op → OutboxRow → OutboxRow → Prop
  | claim {now : Instant} {limit : Int} {claimant : String} {r : OutboxRow} : r.status = .pending →
      RowMove (.claim now limit claimant) r { r with status := .claimed, claimedBy := some claimant, claimedAt := some now }
  | release {key : String} {r : OutboxRow} : r.key = key → r.status = .claimed →
      RowMove (.release key) r { r with status := .pending, claimedBy := none, claimedAt := none }
  | markSent {now : Instant} {key : String} {r : OutboxRow} : r.key = key → r.status = .claimed →
      RowMove (.markSent now key) r { r with status := .sent, sentAt := r.sentAt <|> some now }
  | markAcked {key : String} {r : OutboxRow} : r.key = key → RowMove (.markAcked key) r { r with status := .acked }
  | markFailed {key : String} {r : OutboxRow} : r.key = key → r.status = .claimed →
      RowMove (.markFailed key) r { r with status := .failed }

namespace RowMove

variable {op : Op} {r r' : OutboxRow}

theorem key_id (h : RowMove op r r') : r'.key = r.key ∧ r'.id = r.id := by
  cases h <;> exact ⟨rfl, rfl⟩

theorem statusMove (h : RowMove op r r') : StatusMove op r.key r.status r'.status := by
  cases h with
  | claim hp => rw [hp]; exact .claim
  | release hk hc => subst hk; rw [hc]; exact .release
  | markSent hk hc => subst hk; rw [hc]; exact .markSent
  | markAcked hk => subst hk; exact .markAcked
  | markFailed hk hc => subst hk; rw [hc]; exact .markFailed

/-- A move keeps the stamps in step with the status. -/
theorem stamped (h : RowMove op r r') (hs : r.Stamped) : r'.Stamped := by
  cases h with
  | claim hp => exact ⟨(fun h => by cases h), (fun _ => ⟨rfl, rfl, (hs.pending hp).2.2⟩), (fun h => by cases h)⟩
  | release _ hc => exact ⟨(fun _ => ⟨rfl, rfl, (hs.claimed hc).2.2⟩), (fun h => by cases h), (fun h => by cases h)⟩
  | markSent _ hc =>
    refine ⟨(fun h => by cases h), (fun h => by cases h), (fun _ => ⟨(hs.claimed hc).2.1, ?_⟩)⟩
    cases r.sentAt <;> rfl
  | markAcked _ => exact ⟨(fun h => by cases h), (fun h => by cases h), (fun h => by cases h)⟩
  | markFailed _ _ => exact ⟨(fun h => by cases h), (fun h => by cases h), (fun h => by cases h)⟩

theorem sentAt (h : RowMove op r r') {t : Instant} (ht : r.sentAt = some t) : r'.sentAt = some t := by
  cases h with
  | markSent => show (r.sentAt <|> some _) = some t; rw [ht]; rfl
  | _ => exact ht

end RowMove

/-- Each outbox row of the first list is kept or moved by an operation in the second, in order. -/
def RowsMove (op : Op) (l l' : List OutboxRow) : Prop := List.Forall₂ (fun r r' => r' = r ∨ RowMove op r r') l l'

theorem rowsMove_refl (op : Op) (l : List OutboxRow) : RowsMove op l l := List.forall₂_same.2 fun _ _ => .inl rfl

/-- Rows matched one for one keep their value under a function that every matched pair agrees on. -/
theorem map_eq_of_forall₂ {α β : Type} {R : α → α → Prop} (f : α → β) (hf : ∀ a b, R a b → f b = f a) :
    ∀ {l l' : List α}, List.Forall₂ R l l' → l'.map f = l.map f
  | [], [], .nil => rfl
  | _ :: _, _ :: _, .cons hab h => by rw [List.map_cons, List.map_cons, hf _ _ hab, map_eq_of_forall₂ f hf h]

/-- An element of the first of two lists matched one for one has its match in the second. -/
theorem exists_of_forall₂ {α : Type} {R : α → α → Prop} :
    ∀ {l l' : List α}, List.Forall₂ R l l' → ∀ {a : α}, a ∈ l → ∃ b ∈ l', R a b
  | _ :: _, b :: _, .cons hab h, _, ha => by
    rcases List.mem_cons.1 ha with rfl | ha
    · exact ⟨b, List.mem_cons_self, hab⟩
    · obtain ⟨c, hc, hac⟩ := exists_of_forall₂ h ha
      exact ⟨c, List.mem_cons_of_mem _ hc, hac⟩

/-- An element of the second of two lists matched one for one has its match in the first. -/
theorem exists_of_forall₂_right {α : Type} {R : α → α → Prop} :
    ∀ {l l' : List α}, List.Forall₂ R l l' → ∀ {b : α}, b ∈ l' → ∃ a ∈ l, R a b
  | [], [], .nil, _, hb => by cases hb
  | a :: _, _ :: _, .cons hab h, _, hb => by
    rcases List.mem_cons.1 hb with rfl | hb
    · exact ⟨a, List.mem_cons_self, hab⟩
    · obtain ⟨c, hc, hcb⟩ := exists_of_forall₂_right h hb
      exact ⟨c, List.mem_cons_of_mem _ hc, hcb⟩

namespace RowsMove

variable {op : Op} {l l' : List OutboxRow}

theorem keys (h : RowsMove op l l') : l'.map (·.key) = l.map (·.key) := by
  refine map_eq_of_forall₂ _ (fun r r' hr => ?_) h
  rcases hr with rfl | hm
  · rfl
  · exact hm.key_id.1

theorem ids (h : RowsMove op l l') : l'.map (·.id) = l.map (·.id) := by
  refine map_eq_of_forall₂ _ (fun r r' hr => ?_) h
  rcases hr with rfl | hm
  · rfl
  · exact hm.key_id.2

/-- Rows kept or moved keep the stamps in step with their statuses. -/
theorem stamped (h : RowsMove op l l') (hl : ∀ r ∈ l, r.Stamped) : ∀ r' ∈ l', r'.Stamped := by
  intro r' hr'
  obtain ⟨r, hr, hrr'⟩ := exists_of_forall₂_right h hr'
  rcases hrr' with rfl | hm
  · exact hl r' hr
  · exact hm.stamped (hl r hr)

end RowsMove

/-! ### What an operation does to the outbox -/

/-- A transition whose change is a move of the row of its key keeps every other row. -/
theorem transition_rows {s : Store} (hk : s.keys.Nodup) {op : Op} {key : String}
    {change : OutboxRow → Option OutboxRow} (hc : ∀ r r', s.row? key = some r → change r = some r' → RowMove op r r') :
    RowsMove op s.outbox (s.transition key change).2.outbox := by
  rcases transition_cases s key change with h | ⟨r, r', hr, hr', h⟩
  · rw [h]
    exact rowsMove_refl op _
  · rw [h]
    refine List.forall₂_map_right_iff.2 (List.forall₂_same.2 fun x hx => ?_)
    split
    · -- keys name one row each, so the row of the key is this one
      rename_i hxk
      have hx' : s.row? key = some x := hxk ▸ row?_of_mem hk hx
      have hrx : r = x := Option.some.inj (hr.symm.trans hx')
      subst hrx
      exact .inr (hc _ r' hx' hr')
    · exact .inl rfl

/-- A transition answers false only when it changes nothing. -/
theorem transition_of_false {s : Store} {key : String} {change : OutboxRow → Option OutboxRow}
    (h : (s.transition key change).1 = false) : (s.transition key change).2 = s := by
  unfold transition at h ⊢
  cases hr : s.row? key with
  | none => rfl
  | some r =>
    cases hc : change r with
    | none => simp only [hc]
    | some r' => simp [hr, hc] at h

@[simp] theorem lastId_transition (s : Store) (key : String) (change : OutboxRow → Option OutboxRow) :
    (s.transition key change).2.lastId = s.lastId := by
  rw [transition_eq_with]

/-- Claiming goes through the rows in order and claims pending ones. -/
theorem claimStep_rows (now : Instant) (limit : Int) (claimant : String) :
    ∀ (l C R : List OutboxRow), ∃ R₁, (l.foldl (claimStep now limit claimant) (C, R)).2 = R ++ R₁ ∧
      RowsMove (.claim now limit claimant) l R₁ := by
  intro l
  induction l with
  | nil => intro C R; exact ⟨[], by simp, .nil⟩
  | cons r l ih =>
    intro C R
    by_cases hc : (C.length : Int) < limit ∧ r.status = .pending
    · obtain ⟨R₁, he, hf⟩ := ih (C ++ [{ r with status := .claimed, claimedBy := some claimant, claimedAt := some now }])
        (R ++ [{ r with status := .claimed, claimedBy := some claimant, claimedAt := some now }])
      exact ⟨_ :: R₁, by simp [List.foldl_cons, claimStep, hc, he], .cons (.inr (.claim hc.2)) hf⟩
    · obtain ⟨R₁, he, hf⟩ := ih C (R ++ [r])
      exact ⟨r :: R₁, by simp [List.foldl_cons, claimStep, hc, he], .cons (.inl rfl) hf⟩

theorem claimBatch_rows (s : Store) (now : Instant) (limit : Int) (claimant : String) :
    RowsMove (.claim now limit claimant) s.outbox (s.claimBatch now limit claimant).2.outbox := by
  obtain ⟨R₁, he, hf⟩ := claimStep_rows now limit claimant s.outbox [] []
  rw [claimBatch_eq]
  dsimp only
  rw [he]
  exact hf

/-- An enqueue is refused for the empty key, changes nothing for a key that has a row, and
otherwise adds a pending row under the next id. -/
theorem enqueue_cases (s : Store) (now : Instant) (runId key json : String) :
    (∃ f, s.enqueue now runId key json = .error f) ∨
      ((s.row? key).isSome ∧ s.enqueue now runId key json = .ok (false, s)) ∨
      (key ≠ "" ∧ key ∉ s.keys ∧ s.enqueue now runId key json = .ok (true, { s with
        lastId := s.lastId + 1
        outbox := s.outbox ++ [{ id := s.lastId + 1, runId, key, orderJson := json, status := .pending, createdAt := now }] })) := by
  unfold enqueue
  split
  · exact .inl ⟨_, rfl⟩
  · split
    · exact .inr (.inl ⟨‹_›, rfl⟩)
    · rename_i hne hnone
      refine .inr (.inr ⟨hne, fun hk => hnone ?_, rfl⟩)
      obtain ⟨r, hr, rfl⟩ := List.mem_map.1 hk
      exact row?_of_mem' hr

theorem perform_enqueue (s : Store) (now : Instant) (runId key json : String) :
    (Op.enqueue now runId key json).perform s = s ∨
      (key ≠ "" ∧ key ∉ s.keys ∧ (Op.enqueue now runId key json).perform s = { s with
        lastId := s.lastId + 1
        outbox := s.outbox ++ [{ id := s.lastId + 1, runId, key, orderJson := json, status := .pending, createdAt := now }] }) := by
  rcases enqueue_cases s now runId key json with ⟨f, h⟩ | ⟨-, h⟩ | ⟨hne, hnk, h⟩
  · exact .inl (by simp only [Op.perform, h])
  · exact .inl (by simp only [Op.perform, h])
  · exact .inr ⟨hne, hnk, by simp only [Op.perform, h]⟩

theorem perform_insertInbox (s : Store) (now : Instant) (runId messageId json : String) :
    (Op.insertInbox now runId messageId json).perform s = s ∨
      (Op.insertInbox now runId messageId json).perform s = { s with
        lastId := s.lastId + 1
        inbox := s.inbox ++ [{ id := s.lastId + 1, runId, messageId, messageJson := json, receivedAt := now }] } := by
  by_cases h : messageId ∈ s.inbox.map (·.messageId)
  · exact .inl (by simp only [Op.perform, insertInbox_of_mem h])
  · exact .inr (by simp only [Op.perform, insertInbox_of_new h])

/-- Stamping a message changes only the inbox. -/
theorem markAppliedOrSame_eq (s : Store) (now : Instant) (messageId : String) :
    s.markAppliedOrSame now messageId = { s with inbox := (s.markAppliedOrSame now messageId).inbox } := by
  unfold markAppliedOrSame
  split
  · rename_i s' h
    unfold markApplied at h
    split at h
    · cases h
    · cases h
      rfl
  · rfl

/-- Stamping a message changes no id of the inbox. -/
theorem inbox_ids_markAppliedOrSame (s : Store) (now : Instant) (messageId : String) :
    (s.markAppliedOrSame now messageId).inbox.map (·.id) = s.inbox.map (·.id) := by
  unfold markAppliedOrSame
  split
  · rename_i s' h
    rw [markApplied_inbox h, List.map_map]
    refine List.map_congr_left fun r _ => ?_
    simp only [Function.comp]
    split <;> rfl
  · rfl

/-- Discarding a message changes only the inbox, and keeps some of its rows in order. -/
theorem discard_eq (s : Store) (messageId : String) :
    s.discard messageId = { s with inbox := (s.discard messageId).inbox } ∧ (s.discard messageId).inbox.Sublist s.inbox := by
  unfold discard
  split
  · split
    · exact ⟨rfl, List.filter_sublist⟩
    · exact ⟨rfl, List.Sublist.refl _⟩
  · exact ⟨rfl, List.Sublist.refl _⟩

theorem upsertMapping_eq (s : Store) (internalId brokerId : String) :
    s.upsertMapping internalId brokerId = { s with mappings := (s.upsertMapping internalId brokerId).mappings } := by
  unfold upsertMapping
  split <;> rfl

/-- An operation other than an enqueue keeps or moves each outbox row and adds none. -/
theorem rowsMove_perform {s : Store} (hk : s.keys.Nodup) {op : Op}
    (hop : ∀ now runId key json, op ≠ .enqueue now runId key json) : RowsMove op s.outbox (op.perform s).outbox := by
  have hsame : ∀ {s' : Store}, s'.outbox = s.outbox → RowsMove op s.outbox s'.outbox := fun h => h ▸ rowsMove_refl op _
  cases op with
  | enqueue now runId key json => exact absurd rfl (hop now runId key json)
  | claim now limit claimant => exact claimBatch_rows s now limit claimant
  | release key =>
    refine transition_rows hk fun r r' hr h => ?_
    split at h
    · cases h; exact .release (mem_of_row? hr).2 ‹_›
    · cases h
  | markSent now key =>
    refine transition_rows hk fun r r' hr h => ?_
    split at h
    · cases h; exact .markSent (mem_of_row? hr).2 ‹_›
    · cases h
  | markAcked key =>
    refine transition_rows hk fun r r' hr h => ?_
    cases h
    exact .markAcked (mem_of_row? hr).2
  | markFailed key =>
    refine transition_rows hk fun r r' hr h => ?_
    split at h
    · cases h; exact .markFailed (mem_of_row? hr).2 ‹_›
    · cases h
  | insertInbox now runId messageId json => exact hsame (outbox_insertInbox s now runId messageId json)
  | markApplied now messageId => exact hsame (by rw [Op.perform, markAppliedOrSame_eq])
  | discard messageId => exact hsame (outbox_discard s messageId)
  | saveArm a => exact hsame (outbox_saveArm s a)
  | upsertMapping internalId brokerId => exact hsame (outbox_upsertMapping s internalId brokerId)
  | removeMapping internalId => exact hsame (outbox_removeMapping s internalId)
  | fetch _ | unacked _ | staleClaims _ | inboxOf _ | unappliedOf _ | loadArm | loadMappings => exact hsame rfl

/-- **What an operation does to the outbox.** With keys that name one row each, an operation keeps
each row or moves it, and only an enqueue adds a row: a pending one with no stamps, under a key
that is new and not empty. -/
theorem outbox_perform {s : Store} (hk : s.keys.Nodup) (op : Op) :
    ∃ R, RowsMove op s.outbox R ∧
      ((op.perform s).outbox = R ∨
        ∃ r₀, (op.perform s).outbox = R ++ [r₀] ∧ r₀.key ∉ s.keys ∧ r₀.key ≠ "" ∧ r₀.status = .pending ∧
          r₀.claimedBy = none ∧ r₀.claimedAt = none ∧ r₀.sentAt = none) := by
  cases op with
  | enqueue now runId key json =>
    refine ⟨s.outbox, rowsMove_refl _ _, ?_⟩
    rcases perform_enqueue s now runId key json with h | ⟨hne, hnk, h⟩
    · exact .inl (by rw [h])
    · exact .inr ⟨_, by rw [h], hnk, hne, rfl, rfl, rfl, rfl⟩
  | _ => exact ⟨_, rowsMove_perform hk (fun _ _ _ _ h => by cases h), .inl rfl⟩

/-! ### What an operation does to the ids -/

/-- How an operation changes the ids of the rows: the outbox keeps its ids and the inbox some of its
own in order, or one new row joins one table under the id after the counter, which the counter
then takes. -/
inductive IdsStep (s s' : Store) : Prop
  | keep : s'.outbox.map (·.id) = s.outbox.map (·.id) → (s'.inbox.map (·.id)).Sublist (s.inbox.map (·.id)) →
      s'.lastId = s.lastId → IdsStep s s'
  | outbox : s'.outbox.map (·.id) = s.outbox.map (·.id) ++ [s.lastId + 1] → s'.inbox = s.inbox →
      s'.lastId = s.lastId + 1 → IdsStep s s'
  | inbox : s'.outbox = s.outbox → s'.inbox.map (·.id) = s.inbox.map (·.id) ++ [s.lastId + 1] →
      s'.lastId = s.lastId + 1 → IdsStep s s'

theorem IdsStep.of_eq' {s s' : Store} (ho : s'.outbox.map (·.id) = s.outbox.map (·.id)) (hi : s'.inbox = s.inbox)
    (hl : s'.lastId = s.lastId) : IdsStep s s' :=
  .keep ho (by rw [hi]) hl

theorem IdsStep.of_eq {s s' : Store} (ho : s'.outbox = s.outbox) (hi : s'.inbox = s.inbox) (hl : s'.lastId = s.lastId) :
    IdsStep s s' :=
  .of_eq' (by rw [ho]) hi hl

/-- With keys that name one row each, an operation keeps or drops ids, or adds the one after the
counter to one table. -/
theorem ids_perform {s : Store} (hk : s.keys.Nodup) (op : Op) : IdsStep s (op.perform s) := by
  cases op with
  | enqueue now runId key json =>
    rcases perform_enqueue s now runId key json with h | ⟨-, -, h⟩
    · rw [h]; exact .of_eq rfl rfl rfl
    · rw [h]; exact .outbox (by simp) rfl rfl
  | insertInbox now runId messageId json =>
    rcases perform_insertInbox s now runId messageId json with h | h
    · rw [h]; exact .of_eq rfl rfl rfl
    · rw [h]; exact .inbox rfl (by simp) rfl
  | claim now limit claimant => exact .of_eq' (claimBatch_rows s now limit claimant).ids (by simp [Op.perform]) rfl
  | markApplied now messageId =>
    rw [Op.perform, markAppliedOrSame_eq]
    exact .keep rfl (by rw [inbox_ids_markAppliedOrSame]) rfl
  | discard messageId =>
    rw [Op.perform, (discard_eq s messageId).1]
    exact .keep rfl ((discard_eq s messageId).2.map _) rfl
  | upsertMapping internalId brokerId => rw [Op.perform, upsertMapping_eq]; exact .of_eq rfl rfl rfl
  | _ =>
    refine .of_eq' (rowsMove_perform hk ?_).ids (by simp [Op.perform])
      (by simp [Op.perform, release, markSent, markAcked, markFailed, saveArm, removeMapping])
    intro _ _ _ _ h
    cases h

namespace IdsStep

variable {s s' : Store}

/-- A step keeps some of the ids in order, or adds the one after the counter. -/
theorem ids_cases (h : IdsStep s s') :
    (s'.ids.Sublist s.ids ∧ s'.lastId = s.lastId) ∨ (s'.ids.Perm ((s.lastId + 1) :: s.ids) ∧ s'.lastId = s.lastId + 1) := by
  cases h with
  | keep ho hi hl =>
    refine .inl ⟨?_, hl⟩
    rw [ids, ids, ho]
    exact hi.append_left _
  | outbox ho hi hl =>
    refine .inr ⟨?_, hl⟩
    rw [ids, ids, ho, hi, List.append_assoc, List.singleton_append]
    exact List.perm_middle
  | inbox ho hi hl =>
    refine .inr ⟨?_, hl⟩
    rw [ids, ids, ho, hi, ← List.append_assoc]
    exact List.perm_append_singleton _ _

/-- A step never turns the counter back, and an id it adds is the one after the counter. -/
theorem new_id (h : IdsStep s s') : s.lastId ≤ s'.lastId ∧ ∀ i ∈ s'.ids, i ∉ s.ids → i = s.lastId + 1 := by
  rcases h.ids_cases with ⟨hsub, hl⟩ | ⟨hperm, hl⟩
  · exact ⟨Nat.le_of_eq hl.symm, fun i hi hni => absurd (hsub.subset hi) hni⟩
  · refine ⟨by omega, fun i hi hni => ?_⟩
    rcases List.mem_cons.1 (hperm.mem_iff.1 hi) with rfl | hi'
    · rfl
    · exact absurd hi' hni

end IdsStep

/-! ### The invariant -/

/-- What every store reached from the empty one keeps. -/
structure Sound (s : Store) : Prop where
  /-- Each key names one outbox row. -/
  keys_nodup : s.keys.Nodup
  /-- No outbox row has the empty key. -/
  empty_not_mem : "" ∉ s.keys
  /-- Each outbox row carries the stamps of its status. -/
  stamped : ∀ r ∈ s.outbox, r.Stamped
  /-- The outbox ids increase in the order of the rows. -/
  outbox_sorted : (s.outbox.map (·.id)).Pairwise (· < ·)
  /-- The inbox ids increase in the order of the rows. -/
  inbox_sorted : (s.inbox.map (·.id)).Pairwise (· < ·)
  /-- No id is given twice, across both tables. -/
  ids_nodup : s.ids.Nodup
  /-- The counter is at least every id given. -/
  le_lastId : ∀ i ∈ s.ids, i ≤ s.lastId

theorem sound_empty : ({} : Store).Sound where
  keys_nodup := List.nodup_nil
  empty_not_mem := by simp [keys]
  stamped := by simp
  outbox_sorted := .nil
  inbox_sorted := .nil
  ids_nodup := List.nodup_nil
  le_lastId := by simp [ids]

/-- Adding the id after the counter to the end of a table keeps its ids increasing. -/
theorem sorted_append_next {l : List Nat} {n : Nat} (hl : ∀ i ∈ l, i ≤ n) (hp : l.Pairwise (· < ·)) :
    (l ++ [n + 1]).Pairwise (· < ·) := by
  refine List.pairwise_append.2 ⟨hp, List.pairwise_singleton _ _, fun a ha b hb => ?_⟩
  rw [List.mem_singleton.1 hb]
  have := hl a ha
  omega

/-- A step from a sound store keeps the ids of each table increasing. -/
theorem IdsStep.sorted {s s' : Store} (h : IdsStep s s') (hs : s.Sound) :
    (s'.outbox.map (·.id)).Pairwise (· < ·) ∧ (s'.inbox.map (·.id)).Pairwise (· < ·) := by
  cases h with
  | keep ho hi _ => exact ⟨by rw [ho]; exact hs.outbox_sorted, hs.inbox_sorted.sublist hi⟩
  | outbox ho hi _ =>
    refine ⟨?_, by rw [hi]; exact hs.inbox_sorted⟩
    rw [ho]
    exact sorted_append_next (fun i hi => hs.le_lastId i (List.mem_append_left _ hi)) hs.outbox_sorted
  | inbox ho hi _ =>
    refine ⟨by rw [ho]; exact hs.outbox_sorted, ?_⟩
    rw [hi]
    exact sorted_append_next (fun i hi => hs.le_lastId i (List.mem_append_right _ hi)) hs.inbox_sorted

namespace Sound

variable {s : Store}

/-- The outbox half of the invariant survives an operation. -/
theorem outbox_step (hs : s.Sound) (op : Op) :
    (op.perform s).keys.Nodup ∧ "" ∉ (op.perform s).keys ∧ ∀ r ∈ (op.perform s).outbox, r.Stamped := by
  obtain ⟨R, hR, h | ⟨r₀, h, hnew, hne, hp, hb, ha, hsent⟩⟩ := outbox_perform hs.keys_nodup op
  · have hkeys : (op.perform s).keys = s.keys := by simp only [keys, h, hR.keys]
    exact ⟨hkeys ▸ hs.keys_nodup, hkeys ▸ hs.empty_not_mem, h ▸ hR.stamped hs.stamped⟩
  · have hkeys : (op.perform s).keys = s.keys ++ [r₀.key] := by simp only [keys, h, List.map_append, hR.keys]; rfl
    refine ⟨?_, ?_, ?_⟩
    · rw [hkeys]
      exact List.nodup_append.2 ⟨hs.keys_nodup, List.nodup_singleton _, fun a ha b hb => by
        rw [List.mem_singleton.1 hb]; rintro rfl; exact hnew ha⟩
    · rw [hkeys]
      simpa [Ne.symm hne] using hs.empty_not_mem
    · rw [h]
      intro r hr
      rcases List.mem_append.1 hr with hr | hr
      · exact hR.stamped hs.stamped r hr
      · rw [List.mem_singleton.1 hr]
        refine ⟨fun _ => ⟨hb, ha, hsent⟩, fun hc => ?_, fun hc => ?_⟩ <;> rw [hp] at hc <;> cases hc

/-- **The invariant is inductive.** -/
theorem perform (hs : s.Sound) (op : Op) : (op.perform s).Sound := by
  obtain ⟨hkeys, hempty, hstamped⟩ := hs.outbox_step op
  have hstep := ids_perform hs.keys_nodup op
  obtain ⟨ho, hi⟩ := hstep.sorted hs
  rcases hstep.ids_cases with ⟨hsub, hl⟩ | ⟨hperm, hl⟩
  · exact ⟨hkeys, hempty, hstamped, ho, hi, hs.ids_nodup.sublist hsub,
      fun i hi => hl ▸ hs.le_lastId i (hsub.subset hi)⟩
  · -- the new id is above the counter, so above every id there was
    have fresh : s.lastId + 1 ∉ s.ids := fun h => by have := hs.le_lastId _ h; omega
    refine ⟨hkeys, hempty, hstamped, ho, hi, hperm.nodup_iff.2 (List.nodup_cons.2 ⟨fresh, hs.ids_nodup⟩), fun i hi => ?_⟩
    rcases List.mem_cons.1 (hperm.mem_iff.1 hi) with rfl | hi
    · omega
    · have := hs.le_lastId i hi
      omega

theorem run (hs : s.Sound) (ops : List Op) : (s.run ops).Sound := by
  induction ops generalizing s with
  | nil => exact hs
  | cons op ops ih => exact ih (hs.perform op)

/-- Along a run from a sound store the counter never goes back, and every id the run adds is above
the counter it started from. -/
theorem run_ids (hs : s.Sound) (ops : List Op) :
    s.lastId ≤ (s.run ops).lastId ∧ ∀ i ∈ (s.run ops).ids, i ∉ s.ids → s.lastId < i := by
  induction ops generalizing s with
  | nil => exact ⟨Nat.le_refl _, fun i hi hni => absurd hi hni⟩
  | cons op ops ih =>
    obtain ⟨hle, hnew⟩ := (ids_perform hs.keys_nodup op).new_id
    obtain ⟨ihle, ihnew⟩ := ih (hs.perform op)
    refine ⟨Nat.le_trans hle ihle, fun i hi hni => ?_⟩
    -- an id the first step adds is the one after the counter; a later one is above the next counter
    by_cases h₁ : i ∈ (op.perform s).ids
    · rw [hnew i h₁ hni]
      omega
    · have := ihnew i hi h₁
      omega

/-- In a sound store an operation keeps each outbox row under its key: the row stays as it was or
moves by `RowMove`. -/
theorem row_perform (hs : s.Sound) (op : Op) {r : OutboxRow} (hr : r ∈ s.outbox) :
    ∃ r', (op.perform s).row? r.key = some r' ∧ (r' = r ∨ RowMove op r r') := by
  obtain ⟨R, hR, hout⟩ := outbox_perform hs.keys_nodup op
  obtain ⟨r', hr'R, hrr'⟩ := exists_of_forall₂ hR hr
  have hmem : r' ∈ (op.perform s).outbox := by
    rcases hout with h | ⟨r₀, h, -⟩
    · rw [h]; exact hr'R
    · rw [h]; exact List.mem_append_left _ hr'R
  have hkey : r'.key = r.key := by
    rcases hrr' with rfl | hm
    · rfl
    · exact hm.key_id.1
  exact ⟨r', hkey ▸ row?_of_mem (hs.perform op).keys_nodup hmem, hrr'⟩

/-- In a sound store an enqueue under a key that has a row answers false and changes nothing. -/
theorem enqueue_of_isSome (hs : s.Sound) {key : String} (h : (s.row? key).isSome) (now : Instant) (runId json : String) :
    s.enqueue now runId key json = .ok (false, s) := by
  have hne : key ≠ "" := by
    obtain ⟨r, hr⟩ := Option.isSome_iff_exists.1 h
    obtain ⟨hmem, hk⟩ := mem_of_row? hr
    rintro rfl
    exact hs.empty_not_mem (hk ▸ List.mem_map_of_mem hmem)
  unfold enqueue
  rw [if_neg hne, if_pos h]

end Sound

/-- **The outbox lifecycle.** Along every run of store operations from the empty store each key
names one outbox row, the ids of each table increase in the order of its rows, no id is in both
tables, every id a later run adds is above every id before it, and every outbox row carries the
stamps of its status. One more operation keeps each row under its key and id, changes its status
only along `StatusMove`, never leaves acked, and keeps a send time once stamped. An enqueue under a
key that has a row answers false and changes nothing, and so does every transition that answers
false. -/
theorem outbox_lifecycle (ops later : List Op) (op : Op) :
    let s := ({} : Store).run ops
    (s.keys.Nodup ∧ s.ids.Nodup ∧ (s.outbox.map (·.id)).Pairwise (· < ·) ∧
      (s.inbox.map (·.id)).Pairwise (· < ·) ∧ ∀ r ∈ s.outbox, r.Stamped) ∧
    (∀ i ∈ (s.run later).ids, i ∉ s.ids → ∀ j ∈ s.ids, j < i) ∧
    (∀ r ∈ s.outbox, ∃ r', (op.perform s).row? r.key = some r' ∧ r'.id = r.id ∧
      (r'.status = r.status ∨ StatusMove op r.key r.status r'.status) ∧
      (r.status = .acked → r'.status = .acked) ∧ ∀ t, r.sentAt = some t → r'.sentAt = some t) ∧
    (∀ now runId key json, (s.row? key).isSome → s.enqueue now runId key json = .ok (false, s)) ∧
    ∀ (t : Store) now key, ((t.release key).1 = false → (t.release key).2 = t) ∧
      ((t.markSent now key).1 = false → (t.markSent now key).2 = t) ∧
      ((t.markAcked key).1 = false → (t.markAcked key).2 = t) ∧
      ((t.markFailed key).1 = false → (t.markFailed key).2 = t) := by
  intro s
  have hs : s.Sound := sound_empty.run ops
  refine ⟨⟨hs.keys_nodup, hs.ids_nodup, hs.outbox_sorted, hs.inbox_sorted, hs.stamped⟩, ?_, ?_,
    fun now runId key json h => hs.enqueue_of_isSome h now runId json,
    fun t now key => ⟨transition_of_false, transition_of_false, transition_of_false, transition_of_false⟩⟩
  · intro i hi hni j hj
    have hlt := (hs.run_ids later).2 i hi hni
    have hle := hs.le_lastId j hj
    omega
  · intro r hr
    obtain ⟨r', hr', hrr'⟩ := hs.row_perform op hr
    rcases hrr' with rfl | hm
    · exact ⟨r', hr', rfl, .inl rfl, fun h => h, fun _ h => h⟩
    · refine ⟨r', hr', hm.key_id.2, .inr hm.statusMove, fun ha => ?_, fun _ => hm.sentAt⟩
      have hmove := hm.statusMove
      rw [ha] at hmove
      exact hmove.of_acked

end Store

end TradeDesk
