import TradeDesk.Proofs.Desk.Fills
/-!
# A refused ingest

Taking in fills fails in two ways. A report without a message id is refused before anything is
looked at. Otherwise every report is first recorded in the inbox, which drops the ones already
seen; when the ledger then refuses the new ones as a batch, their rows are discarded again and the
desk disarms for an integrity violation.

Recording touches only the inbox and the store's id counter (`Venue.recordFills_touches_inbox`),
and discarding only the inbox (`Venue.discardAll_touches_inbox`). The rows recorded are new, under
ids no row had, and not applied, so discarding their ids drops exactly them: every row that was
there before stays, applied or not, and so do rows of other runs (`Venue.discardAll_recordFills`).
The ledger refuses before any order hears of the batch, so the book is untouched too. What a
refused ingest changes is therefore the arm state, in memory and in the store, and the counter
(`ingestFills_refused_keeps`).
-/

namespace TradeDesk

namespace Venue

theorem recordFills_touches_inbox (v : Venue) (runId : String) (fills : List BrokerFill) :
    ∃ inbox lastId, (v.recordFills runId fills).2.2 = { v with store := { v.store with inbox, lastId } } := by
  induction fills generalizing v with
  | nil => exact ⟨v.store.inbox, v.store.lastId, rfl⟩
  | cons f rest ih =>
    unfold recordFills
    dsimp only
    generalize hins : v.store.insertInbox v.now runId f.messageId f.encode = p
    obtain ⟨created, s⟩ := p
    have hs : ∃ inbox lastId, s = { v.store with inbox, lastId } := by
      unfold Store.insertInbox at hins
      split at hins
      · cases hins
        exact ⟨v.store.inbox, v.store.lastId, rfl⟩
      · cases hins
        exact ⟨_, _, rfl⟩
    obtain ⟨i₀, l₀, rfl⟩ := hs
    obtain ⟨inbox, lastId, h⟩ := ih { v with store := { v.store with inbox := i₀, lastId := l₀ } }
    exact ⟨inbox, lastId, by split <;> exact h⟩

theorem discardAll_touches_inbox (v : Venue) (messageIds : List String) :
    ∃ inbox, v.discardAll messageIds = { v with store := { v.store with inbox } } := by
  unfold discardAll
  suffices h : ∀ s : Store, ∃ inbox, messageIds.foldl Store.discard s = { s with inbox } by
    obtain ⟨inbox, h⟩ := h v.store
    exact ⟨inbox, by rw [h]⟩
  induction messageIds with
  | nil => intro s; exact ⟨s.inbox, rfl⟩
  | cons id rest ih =>
    intro s
    have hone : ∃ inbox, s.discard id = { s with inbox } := by
      unfold Store.discard
      split
      · split
        · exact ⟨_, rfl⟩
        · exact ⟨s.inbox, rfl⟩
      · exact ⟨s.inbox, rfl⟩
    obtain ⟨i₁, h₁⟩ := hone
    obtain ⟨i₂, h₂⟩ := ih (s.discard id)
    rw [List.foldl_cons, h₂, h₁]
    exact ⟨i₂, rfl⟩

/-- Discarding the reports a recording returned undoes the recording, all but the advance of the
id counter: the inbox is again the one before, row for row. -/
theorem discardAll_recordFills (v : Venue) (runId : String) (fills : List BrokerFill) :
    ∃ lastId, ((v.recordFills runId fills).2.2.discardAll ((v.recordFills runId fills).1.map (·.messageId))) =
      { v with store := { v.store with lastId } } := by
  obtain ⟨rows, hi, hrows, -, hnew, -⟩ := recordFills_spec v runId fills
  obtain ⟨hrowTexts, hrowRun⟩ := recorded_rows hrows
  have hrowIds := (ids_texts_of_rows hrowTexts).1
  obtain ⟨i₁, l₁, h₁⟩ := recordFills_touches_inbox v runId fills
  set fresh := (v.recordFills runId fills).1
  obtain ⟨i₂, h₂⟩ := discardAll_touches_inbox (v.recordFills runId fills).2.2 (fresh.map (·.messageId))
  -- the ids discarded are those of the new rows, none of which an old row has
  have hold : ∀ id ∈ fresh.map (·.messageId), id ∉ v.store.inbox.map (·.messageId) := by
    intro id hid
    rw [← hrowIds] at hid
    obtain ⟨r, hr, rfl⟩ := List.mem_map.1 hid
    exact hnew r hr
  have hinbox : i₂ = v.store.inbox := by
    have hd := Store.discardAll_inbox v.store.inbox _ hold rows _ hi fun r hr => (hrowRun r hr).2
    have hall : ∀ r ∈ rows, r.messageId ∈ fresh.map (·.messageId) := fun r hr => by
      rw [← hrowIds]
      exact List.mem_map_of_mem hr
    rw [List.filter_eq_nil_iff.2 fun r hr => by simpa using hall r hr, List.append_nil] at hd
    rw [← hd]
    exact (congrArg (fun v : Venue => v.store.inbox) h₂).symm
  refine ⟨l₁, ?_⟩
  rw [h₂, hinbox, h₁]

end Venue

/-- Disarming for an integrity violation records the disarmed state in the desk and in the store,
and changes nothing else. -/
theorem haltIntegrity_eq (d : Desk) (v : Venue) :
    haltIntegrity (d, v) =
      ({ d with arm := .disarmed .integrityViolation },
        { v with store := v.store.saveArm (.disarmed .integrityViolation) }) := rfl

/-- An ingest fails only for a report without a message id, changing nothing, or because the
ledger refused the batch of reports the inbox had not seen; the inbox then has the rows of that
batch discarded again, and the desk disarms for an integrity violation. -/
theorem ingestFills_error {w : World} {fills : List BrokerFill} {f : Fault} (h : (ingestFills w fills).1 = .error f) :
    ((∃ g ∈ fills, Text.isBlank g.messageId = true) ∧ f = invalidIntent "fill without broker message id" ∧
        (ingestFills w fills).2 = w) ∨
      ∃ e, f = e.toFault ∧
        w.1.ledger.applyCanonical ((w.2.recordFills w.1.runId fills).1.map BrokerFill.tagged) = .error e ∧
        (ingestFills w fills).2 = haltIntegrity (w.1, (w.2.recordFills w.1.runId fills).2.2.discardAll
          ((w.2.recordFills w.1.runId fills).1.map (·.messageId))) := by
  obtain ⟨d, v⟩ := w
  unfold ingestFills at h ⊢
  split
  · rename_i hblank
    rw [if_pos hblank] at h
    cases h
    exact .inl ⟨List.any_eq_true.1 hblank, rfl, rfl⟩
  · rename_i hblank
    rw [if_neg hblank] at h
    dsimp only at h ⊢
    -- only the ledger can refuse once every report has an id
    generalize hrec : v.recordFills d.runId fills = r at h ⊢
    obtain ⟨fresh, dups, v₁⟩ := r
    dsimp only at h ⊢
    generalize happ : applyFills (d, v₁) fresh = A at h ⊢
    obtain ⟨res, d', v'⟩ := A
    cases res with
    | ok n => cases h
    | error f' =>
      cases h
      obtain ⟨hw, e, he⟩ := applyFills_error happ
      cases hw
      refine .inr ⟨e, ?_, he, rfl⟩
      unfold applyFills at happ
      dsimp only at happ
      split at happ
      · cases happ
      · rw [he] at happ
        cases happ
        rfl

/-- **A refused ingest changes nothing but the arm state.** For every world and every list of
reports, when taking them in fails, the ledger, every tracked order, the halted orders, the
pending replaces, the desk's map of broker ids, the mappings, the outbox and the inbox are all as
they were, the inbox row for row. When the failure is a report without a message id, the arm state
is unchanged too, in the desk and in the store. Otherwise the ledger refused the batch of reports
the inbox had not seen, and the desk is disarmed for an integrity violation, a state also saved in
the store. -/
theorem ingestFills_refused_keeps (w : World) (fills : List BrokerFill) (f : Fault)
    (h : (ingestFills w fills).1 = .error f) :
    let w' := (ingestFills w fills).2
    (w'.1.ledger = w.1.ledger ∧ w'.1.orders = w.1.orders ∧ w'.1.halted = w.1.halted ∧
      w'.1.replacing = w.1.replacing ∧ w'.1.ids = w.1.ids ∧ w'.2.store.mappings = w.2.store.mappings ∧
      w'.2.store.outbox = w.2.store.outbox ∧ w'.2.store.inbox = w.2.store.inbox) ∧
    (((∃ g ∈ fills, Text.isBlank g.messageId = true) ∧ f = invalidIntent "fill without broker message id" ∧
        w'.1.arm = w.1.arm ∧ w'.2.store.arm = w.2.store.arm) ∨
      ∃ (e : LedgerError) (fresh : List BrokerFill), f = e.toFault ∧ fresh.Sublist fills ∧
        w.1.ledger.applyCanonical (fresh.map BrokerFill.tagged) = .error e ∧
        w'.1.arm = .disarmed .integrityViolation ∧ w'.2.store.arm = some (.disarmed .integrityViolation)) := by
  intro w'
  rcases ingestFills_error h with ⟨hblank, hf, hw⟩ | ⟨e, hf, he, hw⟩
  · have hw' : w' = w := hw
    rw [hw']
    exact ⟨⟨rfl, rfl, rfl, rfl, rfl, rfl, rfl, rfl⟩, .inl ⟨hblank, hf, rfl, rfl⟩⟩
  · obtain ⟨lastId, hundo⟩ := w.2.discardAll_recordFills w.1.runId fills
    have hw' : w' = ({ w.1 with arm := .disarmed .integrityViolation },
        { w.2 with store := ({ w.2.store with lastId } : Store).saveArm (.disarmed .integrityViolation) }) := by
      show (ingestFills w fills).2 = _
      rw [hw, hundo, haltIntegrity_eq]
    obtain ⟨-, -, -, -, -, hsub⟩ := recordFills_spec w.2 w.1.runId fills
    rw [hw']
    exact ⟨⟨rfl, rfl, rfl, rfl, rfl, rfl, rfl, rfl⟩, .inr ⟨e, _, hf, hsub, he, rfl, rfl⟩⟩

/-- A fresh desk given a report of a fill of no quantity: the ledger refuses it, and the desk
disarms. -/
theorem ingestFills_refused_keeps_of_an_empty_fill :
    let w := ({ config := ⟨"run", 1000, 60, 0, 0, true⟩ } : DeskSetup).start
    let fills : List BrokerFill := [{ messageId := "m1", seq := 1, orderId := "o1", symbol := "AAPL", side := .buy }]
    (ingestFills w fills).1 = .error (LedgerError.nonPositiveQty 0).toFault ∧
      ((ingestFills w fills).2.1.ledger = w.1.ledger ∧ (ingestFills w fills).2.1.orders = w.1.orders ∧
        (ingestFills w fills).2.1.halted = w.1.halted ∧ (ingestFills w fills).2.1.replacing = w.1.replacing ∧
        (ingestFills w fills).2.1.ids = w.1.ids ∧ (ingestFills w fills).2.2.store.mappings = w.2.store.mappings ∧
        (ingestFills w fills).2.2.store.outbox = w.2.store.outbox ∧
        (ingestFills w fills).2.2.store.inbox = w.2.store.inbox) ∧
      (((∃ g ∈ fills, Text.isBlank g.messageId = true) ∧
          (LedgerError.nonPositiveQty 0).toFault = invalidIntent "fill without broker message id" ∧
          (ingestFills w fills).2.1.arm = w.1.arm ∧ (ingestFills w fills).2.2.store.arm = w.2.store.arm) ∨
        ∃ (e : LedgerError) (fresh : List BrokerFill), (LedgerError.nonPositiveQty 0).toFault = e.toFault ∧
          fresh.Sublist fills ∧ w.1.ledger.applyCanonical (fresh.map BrokerFill.tagged) = .error e ∧
          (ingestFills w fills).2.1.arm = .disarmed .integrityViolation ∧
          (ingestFills w fills).2.2.store.arm = some (.disarmed .integrityViolation)) := by
  intro w fills
  have h : (ingestFills w fills).1 = .error (LedgerError.nonPositiveQty 0).toFault := by with_unfolding_all rfl
  exact ⟨h, ingestFills_refused_keeps w fills _ h⟩

end TradeDesk
