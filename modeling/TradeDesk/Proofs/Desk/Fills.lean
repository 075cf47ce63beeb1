import TradeDesk.Proofs.Desk.Steady
import TradeDesk.Proofs.Ledger.Sequenced
import TradeDesk.Proofs.Ledger.Canonical
/-!
# Taking in fills

A batch of reports reaches the ledger in two steps. `Venue.recordFills` writes the reports whose
message ids the inbox has not seen at the end of the inbox, unapplied and under the desk's run,
and returns them (`recordFills_spec`). `applyFills` hands their tagged fills to the ledger as one
batch; when the ledger accepts, it feeds the orders, which never touches the ledger or the run,
and stamps the batch's rows applied (`applyFills_ok`); when the ledger refuses, nothing changes
(`applyFills_error`).

The orders hear of the batch in the order of the reports' own comparison, `BrokerFill.precedes`,
written apart from the ledger's. It says "strictly before" exactly when the canonical comparison
of the tagged fills does (`BrokerFill.precedes_iff`), so both stable sorts put a batch in one
order, and the orders hear of fills in the order the ledger takes them.
-/

namespace TradeDesk

namespace BrokerFill

/-- A report goes strictly before another exactly when its tagged fill does. -/
theorem precedes_iff {a b : BrokerFill} : precedes a b = true ↔ TaggedFill.canonical a.tagged b.tagged = .lt := by
  rw [TaggedFill.canonical_eq_lt_iff]
  unfold precedes
  by_cases hs : a.seq = b.seq <;> by_cases hy : a.symbol = b.symbol <;>
    by_cases hr : a.side.rank = b.side.rank <;> simp [hs, hy, hr, tagged]

/-- The stable sort by `precedes` is the stable sort by the canonical comparison of the tagged
fills. -/
theorem sortCanonical_eq (fs : List BrokerFill) :
    sortCanonical fs = fs.mergeSort fun a b => TaggedFill.canonical a.tagged b.tagged != .gt := by
  -- `b` goes strictly before `a` exactly when the canonical comparison puts `a` after `b`
  have hle : ∀ a b : BrokerFill, (!precedes b a) = (TaggedFill.canonical a.tagged b.tagged != .gt) := by
    intro a b
    rw [Bool.eq_iff_iff, Bool.not_eq_true', bne_iff_ne, ne_eq, ← Bool.not_eq_true, precedes_iff,
      Std.OrientedCmp.gt_iff_lt]
  simp only [sortCanonical, hle]

theorem sortCanonical_map_tagged (fs : List BrokerFill) :
    (sortCanonical fs).map tagged = TaggedFill.sortCanonical (fs.map tagged) := by
  rw [sortCanonical_eq]
  exact List.map_mergeSort fun _ _ _ _ => rfl

theorem sortCanonical_perm (fs : List BrokerFill) : (sortCanonical fs).Perm fs := List.mergeSort_perm _ _

@[simp] theorem seq_tagged (f : BrokerFill) : f.tagged.seq = f.seq := rfl

end BrokerFill

/-- **One canonical order.** For every list of tagged fills, the canonical sort returns a
permutation of it in non-decreasing canonical order, in which the fills of each key keep the order
they were given in, so that sorting twice is sorting once. For every list of reports, the reports'
own sort returns a permutation of them that puts their tagged fills where the canonical sort puts
them: fills reach the orders in the order they reach the ledger. -/
theorem canonical_sorts_agree :
    (∀ fs : List TaggedFill,
      (TaggedFill.sortCanonical fs).Perm fs ∧ TaggedFill.InOrder (TaggedFill.sortCanonical fs) ∧
      (∀ a, TaggedFill.tiedWith a (TaggedFill.sortCanonical fs) = TaggedFill.tiedWith a fs) ∧
      TaggedFill.sortCanonical (TaggedFill.sortCanonical fs) = TaggedFill.sortCanonical fs) ∧
    ∀ fs : List BrokerFill, (BrokerFill.sortCanonical fs).Perm fs ∧
      (BrokerFill.sortCanonical fs).map BrokerFill.tagged = TaggedFill.sortCanonical (fs.map BrokerFill.tagged) :=
  ⟨fun fs => ⟨TaggedFill.sortCanonical_perm fs, TaggedFill.inOrder_sortCanonical fs,
      fun a => TaggedFill.tiedWith_sortCanonical a fs, TaggedFill.sortCanonical_sortCanonical fs⟩,
    fun fs => ⟨BrokerFill.sortCanonical_perm fs, BrokerFill.sortCanonical_map_tagged fs⟩⟩

theorem books_feedFills (d : Desk) (fs : List BrokerFill) :
    (d.feedFills fs).2.ledger = d.ledger ∧ (d.feedFills fs).2.runId = d.runId := by
  induction fs generalizing d with
  | nil => exact ⟨rfl, rfl⟩
  | cons f rest ih =>
    have hA := books_applyEventCore d f.orderId f.event f.messageId
    unfold Desk.feedFills
    split
    · exact ih d
    · generalize d.applyEventCore f.orderId f.event f.messageId = A at hA ⊢
      obtain ⟨rA, dA⟩ := A
      obtain ⟨hl, hr⟩ := ih dA
      split
      · rename_i heq
        cases heq
        exact ⟨hl.trans hA.1, hr.trans hA.2⟩
      · rename_i heq
        cases heq
        exact ⟨hl.trans hA.1, hr.trans hA.2⟩

theorem venue_forgetAll (orderIds : List String) (v : Venue) :
    (orderIds.foldl Venue.forget v).now = v.now ∧ (orderIds.foldl Venue.forget v).store.inbox = v.store.inbox := by
  induction orderIds generalizing v with
  | nil => exact ⟨rfl, rfl⟩
  | cons id rest ih =>
    obtain ⟨hn, hi⟩ := ih (v.forget id)
    exact ⟨hn, hi.trans (Store.inbox_markAcked _ _)⟩

/-- A batch the ledger accepts is logged in canonical order and its rows are stamped applied. -/
theorem applyFills_ok {w w' : World} {fills : List BrokerFill} {n : Nat} (h : applyFills w fills = (.ok n, w')) :
    w.1.ledger.applyCanonical (fills.map BrokerFill.tagged) = .ok w'.1.ledger ∧ w'.1.runId = w.1.runId ∧
      w'.2.store.inbox = w.2.store.inbox.map fun r =>
        if r.messageId ∈ fills.map (·.messageId) then r.stamp w.2.now else r := by
  obtain ⟨d, v⟩ := w
  unfold applyFills at h
  dsimp only at h
  split at h
  · rename_i he
    cases h
    have hnil : fills = [] := List.isEmpty_iff.1 he
    subst hnil
    refine ⟨Ledger.applyCanonical_nil _, rfl, ?_⟩
    simp
  · split at h
    · cases h
    · rename_i l hl
      cases h
      obtain ⟨hbl, hbr⟩ := books_feedFills { d with ledger := l } (BrokerFill.sortCanonical fills)
      obtain ⟨hnow, hinbox⟩ := venue_forgetAll ((Desk.feedFills { d with ledger := l } (BrokerFill.sortCanonical fills)).1) v
      refine ⟨?_, hbr, ?_⟩
      · rw [hl]
        exact congrArg Except.ok hbl.symm
      dsimp only
      rw [Store.markAppliedAll_inbox, hinbox, hnow]

theorem applyFills_error {w w' : World} {fills : List BrokerFill} {f : Fault} (h : applyFills w fills = (.error f, w')) :
    w' = w ∧ ∃ e, w.1.ledger.applyCanonical (fills.map BrokerFill.tagged) = .error e := by
  obtain ⟨d, v⟩ := w
  unfold applyFills at h
  dsimp only at h
  split at h
  · cases h
  · split at h
    · rename_i e he
      cases h
      exact ⟨rfl, e, he⟩
    · cases h

/-- Recording reports adds rows at the end of the inbox, one per report returned, each new, of
the run, and not applied; the reports returned are some of those given, in their order. -/
theorem recordFills_spec (v : Venue) (runId : String) (fills : List BrokerFill) :
    ∃ rows : List InboxRow,
      (v.recordFills runId fills).2.2.store.inbox = v.store.inbox ++ rows ∧
      rows.map (fun r => (r.runId, r.messageId, r.messageJson, r.appliedAt)) =
        (v.recordFills runId fills).1.map (fun f => (runId, f.messageId, f.encode, none)) ∧
      (rows.map (·.messageId)).Nodup ∧ (∀ r ∈ rows, r.messageId ∉ v.store.inbox.map (·.messageId)) ∧
      (v.recordFills runId fills).1.Sublist fills := by
  induction fills generalizing v with
  | nil => exact ⟨[], by simp [Venue.recordFills], rfl, List.nodup_nil, (fun r hr => by cases hr), List.Sublist.slnil⟩
  | cons f rest ih =>
    by_cases hm : f.messageId ∈ v.store.inbox.map (·.messageId)
    · obtain ⟨rows, hi, hrows, hnd, hnew, hsub⟩ := ih v
      have hstep : v.recordFills runId (f :: rest) =
          ((v.recordFills runId rest).1, (v.recordFills runId rest).2.1 + 1, (v.recordFills runId rest).2.2) := by
        simp only [Venue.recordFills, Store.insertInbox_of_mem hm]
        rfl
      rw [hstep]
      exact ⟨rows, hi, hrows, hnd, hnew, hsub.cons f⟩
    · set row : InboxRow :=
        { id := v.store.lastId + 1, runId := runId, messageId := f.messageId, messageJson := f.encode,
          receivedAt := v.now }
      set v₁ : Venue :=
        { v with store := { v.store with lastId := v.store.lastId + 1, inbox := v.store.inbox ++ [row] } }
      obtain ⟨rows, hi, hrows, hnd, hnew, hsub⟩ := ih v₁
      have hstep : v.recordFills runId (f :: rest) =
          (f :: (v₁.recordFills runId rest).1, (v₁.recordFills runId rest).2.1, (v₁.recordFills runId rest).2.2) := by
        simp only [Venue.recordFills, Store.insertInbox_of_new hm]
        rfl
      rw [hstep]
      have hnew₁ : ∀ r ∈ rows, r.messageId ∉ v.store.inbox.map (·.messageId) ∧ r.messageId ≠ f.messageId := by
        intro r hr
        have := hnew r hr
        simp only [v₁, List.map_append, List.map_cons, List.map_nil, List.mem_append, List.mem_singleton, not_or] at this
        exact this
      refine ⟨row :: rows, by rw [hi, List.append_assoc]; rfl, ?_, ?_, ?_, hsub.cons_cons f⟩
      · rw [List.map_cons, hrows, List.map_cons]
      · refine List.nodup_cons.2 ⟨fun hmem => ?_, hnd⟩
        obtain ⟨r, hr, he⟩ := List.mem_map.1 hmem
        exact (hnew₁ r hr).2 he
      · intro r hr
        rcases List.mem_cons.1 hr with rfl | hr
        · exact hm
        · exact (hnew₁ r hr).1

/-- Rows recorded for reports carry their ids and texts, under the run, unapplied. -/
theorem recorded_rows {rows : List InboxRow} {runId : String} {fills : List BrokerFill}
    (h : rows.map (fun r => (r.runId, r.messageId, r.messageJson, r.appliedAt)) =
      fills.map fun f => (runId, f.messageId, f.encode, none)) :
    rows.map (fun r => (r.messageId, r.messageJson)) = fills.map (fun f => (f.messageId, f.encode)) ∧
      ∀ r ∈ rows, r.runId = runId ∧ r.appliedAt = none := by
  refine ⟨by simpa [List.map_map, Function.comp_def] using congrArg (List.map fun t => (t.2.1, t.2.2.1)) h, ?_⟩
  intro r hr
  obtain ⟨f, -, hf⟩ := List.mem_map.1 (h ▸ List.mem_map_of_mem (f := fun r : InboxRow =>
    (r.runId, r.messageId, r.messageJson, r.appliedAt)) hr)
  simp only [Prod.mk.injEq] at hf
  exact ⟨hf.1.symm, hf.2.2.2.symm⟩

theorem ids_texts_of_rows {rows : List InboxRow} {fills : List BrokerFill}
    (h : rows.map (fun r => (r.messageId, r.messageJson)) = fills.map fun f => (f.messageId, f.encode)) :
    rows.map (·.messageId) = fills.map (·.messageId) ∧ rows.map (·.messageJson) = fills.map BrokerFill.encode :=
  ⟨by simpa [List.map_map, Function.comp_def] using congrArg (List.map Prod.fst) h,
    by simpa [List.map_map, Function.comp_def] using congrArg (List.map Prod.snd) h⟩

end TradeDesk
