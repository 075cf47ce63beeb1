import TradeDesk.Proofs.Ledger.Sequenced
/-!
# A batch is applied all or nothing

A batch of tagged fills is put in canonical order and checked in full before any fill of it is
appended: each fill's fields, then its number against the one before, starting from the ledger's
last number. The appends that follow check the number first and the fields after, the other way
round; they still never refuse, since the check has passed every fill in the same order against
the same running last number, and each append moves the ledger's last number to the fill's.

So a batch is either accepted, and is then exactly the appends of its fills in canonical order,
each of which succeeds, or refused by the check before anything was appended: the refusal
carries no ledger, and the ledger stays as it was (`Ledger.applyCanonical_all_or_nothing`). The
check passes exactly when every fill is valid and the numbers are distinct and above the last
one: numbers come first in the canonical order, so distinct numbers are strictly increasing once
sorted (`Ledger.increasing_sortCanonical_iff`).
-/

namespace TradeDesk

namespace Ledger

/-- Tagged fills sorted by number alone, the lesser number first. -/
theorem pairwise_mergeSort_seq (batch : List TaggedFill) :
    (batch.mergeSort fun a b => decide (a.seq ≤ b.seq)).Pairwise fun a b => a.seq ≤ b.seq := by
  have h := @List.pairwise_mergeSort _ (fun a b : TaggedFill => decide (a.seq ≤ b.seq))
    (fun _ _ _ hab hbc => by simp only [decide_eq_true_eq] at hab hbc ⊢; exact UInt64.le_trans hab hbc)
    (fun a b => by simpa using UInt64.le_total a.seq b.seq) batch
  simpa only [decide_eq_true_eq] using h

/-- The canonical order of a batch increases strictly in number exactly when no two of its fills
share a number. -/
theorem increasing_sortCanonical_iff (batch : List TaggedFill) :
    Increasing (TaggedFill.sortCanonical batch) ↔ (batch.map (·.seq)).Nodup := by
  constructor
  · intro hinc
    have hnd : ((TaggedFill.sortCanonical batch).map (·.seq)).Nodup :=
      List.pairwise_map.2 (hinc.imp UInt64.ne_of_lt)
    exact ((List.mergeSort_perm batch _).map _).nodup_iff.1 hnd
  · intro hnd
    -- sorted by number alone, distinct numbers increase strictly; the canonical sort agrees
    set gs := batch.mergeSort fun a b => decide (a.seq ≤ b.seq)
    have hperm : gs.Perm batch := List.mergeSort_perm batch _
    have hgs : (gs.map (·.seq)).Nodup := (hperm.map _).nodup_iff.2 hnd
    have hinc : Increasing gs := by
      refine ((pairwise_mergeSort_seq batch).and (List.pairwise_map.1 hgs)).imp ?_
      rintro a b ⟨hle, hne⟩
      exact UInt64.lt_of_le_of_ne hle hne
    rw [sortCanonical_of_perm hinc hperm.symm]
    exact hinc

/-- A batch's check answers either nothing, and the batch is then appended fill by fill in
canonical order, or the refusal the batch gets. -/
theorem applyCanonical_cases (l : Ledger) (batch : List TaggedFill) :
    (checkBatch l.lastSeq (TaggedFill.sortCanonical batch) = none ∧
      l.applyCanonical batch =
        (TaggedFill.sortCanonical batch).foldlM (fun l tf => l.appendFillSeq tf.fill tf.seq) l) ∨
    ∃ e, checkBatch l.lastSeq (TaggedFill.sortCanonical batch) = some e ∧ l.applyCanonical batch = .error e := by
  unfold applyCanonical
  dsimp only
  split
  · rename_i e he
    exact .inr ⟨e, he, rfl⟩
  · rename_i he
    exact .inl ⟨he, rfl⟩

/-- **All or nothing.** For every ledger and every batch, either the batch is accepted, and the
ledger it leaves is what appending each fill of the batch's canonical order with its number gives,
each append succeeding; or it is refused, and the refusal is the one the check finds before any
fill is appended, so the ledger is left as it was. A batch is accepted exactly when every fill is
valid and the numbers are pairwise distinct and all above the ledger's last number, if it has
one. -/
theorem applyCanonical_all_or_nothing (l : Ledger) (batch : List TaggedFill) :
    ((∃ l', l.applyCanonical batch = .ok l' ∧
        (TaggedFill.sortCanonical batch).foldlM (fun l tf => l.appendFillSeq tf.fill tf.seq) l = .ok l') ∨
      ∃ e, l.applyCanonical batch = .error e ∧ checkBatch l.lastSeq (TaggedFill.sortCanonical batch) = some e) ∧
    ((∃ l', l.applyCanonical batch = .ok l') ↔
      (∀ tf ∈ batch, tf.fill.check = none) ∧ (batch.map (·.seq)).Nodup ∧ ∀ tf ∈ batch, ∀ n ∈ l.lastSeq, n < tf.seq) := by
  refine ⟨?_, ?_⟩
  · rcases applyCanonical_cases l batch with ⟨hc, happ⟩ | ⟨e, hc, happ⟩
    · rw [foldlM_appendFillSeq _ _ hc] at happ
      exact .inl ⟨_, happ, happ ▸ foldlM_appendFillSeq _ _ hc⟩
    · exact .inr ⟨e, happ, hc⟩
  · have hmem : ∀ tf, tf ∈ TaggedFill.sortCanonical batch ↔ tf ∈ batch := fun _ => List.mem_mergeSort
    have hok : (∃ l', l.applyCanonical batch = .ok l') ↔ checkBatch l.lastSeq (TaggedFill.sortCanonical batch) = none :=
      ⟨fun ⟨_, h⟩ => (applyCanonical_eq_ok.1 h).1, fun h => ⟨_, applyCanonical_eq_ok.2 ⟨h, rfl⟩⟩⟩
    rw [hok, checkBatch_eq_none_iff, increasing_sortCanonical_iff]
    simp only [hmem]

end Ledger

end TradeDesk
