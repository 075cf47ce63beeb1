import TradeDesk.Proofs.Store.Outbox
/-!
# The inbox

The inbox changes in three ways only. A message is recorded at the end, under an id no row has
yet; messages are stamped applied, which changes nothing else of a row and keeps a stamp it
already has; and a message that is not applied may be discarded again. Every other operation of
the store leaves the inbox as it is.

`markAppliedAll_inbox` says what stamping a list of messages does to the whole inbox at once, and
`discardAll_inbox` what discarding does when the messages were just recorded: the rows recorded
before are all that is left of the inbox.
-/

namespace TradeDesk

namespace InboxRow

/-- The row stamped applied at `now`, unless it already was. -/
def stamp (now : Instant) (r : InboxRow) : InboxRow := { r with appliedAt := r.appliedAt <|> some now }

@[simp] theorem messageId_stamp (now : Instant) (r : InboxRow) : (r.stamp now).messageId = r.messageId := rfl

@[simp] theorem messageJson_stamp (now : Instant) (r : InboxRow) : (r.stamp now).messageJson = r.messageJson := rfl

@[simp] theorem runId_stamp (now : Instant) (r : InboxRow) : (r.stamp now).runId = r.runId := rfl

theorem isSome_appliedAt_stamp (now : Instant) (r : InboxRow) : ((r.stamp now).appliedAt).isSome := by
  cases h : r.appliedAt <;> simp [stamp, h]

theorem stamp_stamp (now : Instant) (r : InboxRow) : (r.stamp now).stamp now = r.stamp now := by
  cases h : r.appliedAt <;> simp [stamp, h]

theorem stamp_of_isSome {now : Instant} {r : InboxRow} (h : r.appliedAt.isSome) : r.stamp now = r := by
  obtain ⟨id, runId, messageId, messageJson, receivedAt, appliedAt⟩ := r
  cases appliedAt with
  | none => cases h
  | some t => rfl

end InboxRow

namespace Store

/-! ### Operations away from the inbox -/

@[simp] theorem inbox_transition (s : Store) (key : String) (change : OutboxRow → Option OutboxRow) :
    (s.transition key change).2.inbox = s.inbox := by
  rw [transition_eq_with]

@[simp] theorem inbox_release (s : Store) (key : String) : (s.release key).2.inbox = s.inbox :=
  inbox_transition _ _ _

@[simp] theorem inbox_markSent (s : Store) (now : Instant) (key : String) : (s.markSent now key).2.inbox = s.inbox :=
  inbox_transition _ _ _

@[simp] theorem inbox_markAcked (s : Store) (key : String) : (s.markAcked key).2.inbox = s.inbox :=
  inbox_transition _ _ _

@[simp] theorem inbox_markFailed (s : Store) (key : String) : (s.markFailed key).2.inbox = s.inbox :=
  inbox_transition _ _ _

@[simp] theorem inbox_claimBatch (s : Store) (now : Instant) (limit : Int) (claimant : String) :
    (s.claimBatch now limit claimant).2.inbox = s.inbox := by
  rw [(claimBatch_spec s now limit claimant).1]

theorem inbox_enqueue {s s' : Store} {now : Instant} {runId key json : String} {b : Bool}
    (h : s.enqueue now runId key json = .ok (b, s')) : s'.inbox = s.inbox := by
  unfold enqueue at h
  split at h
  · cases h
  · split at h
    · cases h; rfl
    · cases h; rfl

@[simp] theorem inbox_upsertMapping (s : Store) (internalId brokerId : String) :
    (s.upsertMapping internalId brokerId).inbox = s.inbox := by
  unfold upsertMapping; split <;> rfl

@[simp] theorem inbox_removeMapping (s : Store) (internalId : String) : (s.removeMapping internalId).inbox = s.inbox :=
  rfl

@[simp] theorem inbox_saveArm (s : Store) (a : ArmState) : (s.saveArm a).inbox = s.inbox := rfl

/-! ### Recording, stamping and discarding -/

theorem message?_eq_none_iff {s : Store} {id : String} : s.message? id = none ↔ id ∉ s.inbox.map (·.messageId) := by
  simp [message?]

/-- A message is recorded when its id is new: a row at the end of the inbox, not yet applied. -/
theorem insertInbox_of_new {s : Store} {now : Instant} {runId mid json : String} (h : mid ∉ s.inbox.map (·.messageId)) :
    s.insertInbox now runId mid json =
      (true, { s with
        lastId := s.lastId + 1
        inbox := s.inbox ++
          [{ id := s.lastId + 1, runId := runId, messageId := mid, messageJson := json, receivedAt := now }] }) := by
  rw [insertInbox, message?_eq_none_iff.2 h]
  rfl

/-- A message whose id is recorded already changes nothing. -/
theorem insertInbox_of_mem {s : Store} {now : Instant} {runId mid json : String} (h : mid ∈ s.inbox.map (·.messageId)) :
    s.insertInbox now runId mid json = (false, s) := by
  have hs : (s.message? mid).isSome := by
    rw [Option.isSome_iff_ne_none]
    exact fun hn => message?_eq_none_iff.1 hn h
  rw [insertInbox, if_pos hs]

theorem markApplied_inbox {s s' : Store} {now : Instant} {id : String} (h : s.markApplied now id = .ok s') :
    s'.inbox = s.inbox.map fun r => if r.messageId = id then r.stamp now else r := by
  unfold markApplied at h
  split at h
  · cases h
  · cases h; rfl

/-- Stamping messages stamps every row of one of them, whatever the order. -/
theorem markAppliedAll_inbox (s : Store) (now : Instant) (ids : List String) :
    (s.markAppliedAll now ids).inbox = s.inbox.map fun r => if r.messageId ∈ ids then r.stamp now else r := by
  induction ids generalizing s with
  | nil => simp [markAppliedAll]
  | cons id rest ih =>
    rw [markAppliedAll_cons, ih]
    -- one step stamps the rows of `id`, or none when no row has it
    have hstep : (s.markAppliedOrSame now id).inbox = s.inbox.map fun r => if r.messageId = id then r.stamp now else r := by
      unfold markAppliedOrSame
      split
      · rename_i s' h
        exact markApplied_inbox h
      · rename_i f h
        unfold markApplied at h
        split at h
        · rename_i hn
          rw [message?_eq_none_iff] at hn
          refine ((List.map_congr_left fun r hr => ?_).trans (List.map_id _)).symm
          rw [if_neg fun he : r.messageId = id => hn (he ▸ List.mem_map_of_mem hr)]
          rfl
        · cases h
    rw [hstep, List.map_map]
    refine List.map_congr_left fun r _ => ?_
    by_cases hr : r.messageId = id
    · simp [hr, InboxRow.stamp_stamp]
    · simp [hr]

/-- Stamping keeps what a stamp does not change of a row, such as its message id and text. -/
theorem map_stamped {β : Type} (g : InboxRow → β) {now : Instant} (hg : ∀ r, g (r.stamp now) = g r)
    (ids : List String) (rows : List InboxRow) :
    (rows.map fun r => if r.messageId ∈ ids then r.stamp now else r).map g = rows.map g := by
  rw [List.map_map]
  refine List.map_congr_left fun r _ => ?_
  simp only [Function.comp]
  split
  · exact hg r
  · rfl

theorem stamped_of_applied {now : Instant} {ids : List String} {rows : List InboxRow}
    (h : ∀ r ∈ rows, r.appliedAt.isSome) : (rows.map fun r => if r.messageId ∈ ids then r.stamp now else r) = rows := by
  refine (List.map_congr_left fun r hr => ?_).trans (List.map_id _)
  split
  · exact InboxRow.stamp_of_isSome (h r hr)
  · rfl

theorem stamped_of_not_mem {now : Instant} {ids : List String} {rows : List InboxRow}
    (h : ∀ r ∈ rows, r.messageId ∉ ids) : (rows.map fun r => if r.messageId ∈ ids then r.stamp now else r) = rows := by
  refine (List.map_congr_left fun r hr => ?_).trans (List.map_id _)
  rw [if_neg (h r hr)]
  rfl

/-- Discarding a message none of whose rows is applied drops its rows. -/
theorem discard_inbox {s : Store} {id : String} (h : ∀ r ∈ s.inbox, r.messageId = id → r.appliedAt = none) :
    (s.discard id).inbox = s.inbox.filter (·.messageId ≠ id) := by
  cases hm : s.message? id with
  | none =>
    rw [discard, hm]
    rw [message?_eq_none_iff] at hm
    exact (List.filter_eq_self.2 fun r hr => by
      simpa using fun he : r.messageId = id => hm (he ▸ List.mem_map_of_mem hr)).symm
  | some r =>
    have hmem : r ∈ s.inbox ∧ r.messageId = id := by
      simp only [message?] at hm
      exact ⟨List.mem_of_find?_eq_some hm, by simpa using List.find?_some hm⟩
    rw [discard, hm]
    simp [h r hmem.1 hmem.2]

/-- Discarding the messages of rows just recorded and not applied leaves the rows recorded before
them, as long as none of those has one of the ids. -/
theorem discardAll_inbox (old : List InboxRow) (ids : List String) (hold : ∀ id ∈ ids, id ∉ old.map (·.messageId)) :
    ∀ (rows : List InboxRow) (s : Store), s.inbox = old ++ rows → (∀ r ∈ rows, r.appliedAt = none) →
      (ids.foldl discard s).inbox = old ++ rows.filter fun r => r.messageId ∉ ids := by
  induction ids with
  | nil => intro rows s hs _; simpa using hs
  | cons id rest ih =>
    intro rows s hs hrows
    have hid : id ∉ old.map (·.messageId) := hold id List.mem_cons_self
    have hstep : (s.discard id).inbox = old ++ rows.filter (·.messageId ≠ id) := by
      have hunapplied : ∀ r ∈ s.inbox, r.messageId = id → r.appliedAt = none := by
        intro r hr he
        rw [hs] at hr
        rcases List.mem_append.1 hr with ho | hn
        · exact absurd (he ▸ List.mem_map_of_mem ho) hid
        · exact hrows r hn
      rw [discard_inbox hunapplied, hs, List.filter_append]
      congr 1
      exact List.filter_eq_self.2 fun x hx => by
        simpa using fun he : x.messageId = id => hid (he ▸ List.mem_map_of_mem hx)
    rw [List.foldl_cons, ih (fun x hx => hold x (List.mem_cons_of_mem _ hx)) _ _ hstep
      (fun r hr => hrows r (List.mem_filter.1 hr).1), List.filter_filter]
    congr 1
    refine List.filter_congr fun r _ => ?_
    simp only [List.mem_cons, not_or, Bool.decide_and, decide_not]
    exact Bool.and_comm _ _

end Store

end TradeDesk
