import TradeDesk.Proofs.Ledger.Replay
import TradeDesk.Proofs.Ledger.Canonical
import Mathlib.Data.List.Nodup
/-!
# Ledgers of sequenced fills

A ledger that only ever takes batches of tagged fills is determined by the fills it took: it is
`ofFills c gs`, the new ledger with cash `c` that logged and applied `gs` in order and remembers
the last of their numbers.

A batch passes its check exactly when every fill of it is valid and, in canonical order, the
numbers increase strictly from above the ledger's last one (`checkBatch_eq_none_iff`). So the
fills a ledger of batches has taken increase strictly in number across all its batches, and an
accepted batch turns `ofFills c gs` into `ofFills c (gs ++ sorted)` with the batch sorted, and a
fill appended on its own turns it into `ofFills c (gs ++ [tf])`.

Fills whose numbers increase strictly are in canonical order already, and the canonical sort puts
any permutation of them back into that order (`sortCanonical_of_perm`): the number is the first
key, and distinct fills never share one. A batch the ledger accepts is such a list once sorted, so
the order a batch is given in never changes what applying it does (`applyCanonical_perm`).
-/

namespace TradeDesk

namespace TaggedFill

theorem canonical_of_seq_lt {a b : TaggedFill} (h : a.seq < b.seq) : canonical a b = .lt := by
  simp [canonical, Std.compare_eq_lt.mpr h]

theorem canonical_of_seq_gt {a b : TaggedFill} (h : b.seq < a.seq) : canonical a b = .gt := by
  simp [canonical, Std.compare_eq_gt.mpr h]

theorem sortCanonical_singleton (tf : TaggedFill) : sortCanonical [tf] = [tf] := List.mergeSort_singleton tf

end TaggedFill

namespace Ledger

/-- The ledger that took the tagged fills `gs` in order, starting from the cash `c`. -/
def ofFills (c : Int64) (gs : List TaggedFill) : Ledger :=
  ((Ledger.new c).recordAll (fillEntries gs)).withLastSeq (gs.getLast?.map (·.seq))

@[simp] theorem entries_ofFills (c : Int64) (gs : List TaggedFill) : (ofFills c gs).entries = fillEntries gs := by
  simp [ofFills, Ledger.new]

@[simp] theorem lastSeq_ofFills (c : Int64) (gs : List TaggedFill) :
    (ofFills c gs).lastSeq = gs.getLast?.map (·.seq) := rfl

@[simp] theorem initialCash_ofFills (c : Int64) (gs : List TaggedFill) : (ofFills c gs).initialCash = c := by
  simp [ofFills, Ledger.new]

theorem fillEntries_append (gs hs : List TaggedFill) : fillEntries (gs ++ hs) = fillEntries gs ++ fillEntries hs :=
  List.map_append

theorem recordAll_append (l : Ledger) (es es' : List Entry) : l.recordAll (es ++ es') = (l.recordAll es).recordAll es' :=
  List.foldl_append

/-- Fills in a strictly increasing order of numbers. -/
def Increasing (gs : List TaggedFill) : Prop := gs.Pairwise fun a b => a.seq < b.seq

/-- A batch passes its check when each of its fills is valid and the numbers increase strictly
from above the last one. -/
theorem checkBatch_eq_none_iff {last : Option UInt64} {batch : List TaggedFill} :
    checkBatch last batch = none ↔
      (∀ tf ∈ batch, tf.fill.check = none) ∧ Increasing batch ∧ ∀ tf ∈ batch, ∀ n ∈ last, n < tf.seq := by
  induction batch generalizing last with
  | nil => simp [checkBatch, Increasing]
  | cons tf rest ih =>
    have hseq : seqAllowed last tf.seq = none ↔ ∀ n ∈ last, n < tf.seq := by
      cases last with
      | none => simp [seqAllowed]
      | some n => simp [seqAllowed, UInt64.not_le]
    rw [checkBatch_cons_eq_none, ih, hseq]
    simp only [List.mem_cons, forall_eq_or_imp, Increasing, List.pairwise_cons, Option.mem_def,
      forall_eq', Option.some.injEq]
    constructor
    · rintro ⟨hc, hlast, hcs, hinc, hrest⟩
      exact ⟨⟨hc, hcs⟩, ⟨hrest, hinc⟩, hlast, fun x hx n hn => UInt64.lt_trans (hlast n hn) (hrest x hx)⟩
    · rintro ⟨⟨hc, hcs⟩, ⟨hrest, hinc⟩, hlast, -⟩
      exact ⟨hc, hlast, hcs, hinc, hrest⟩

theorem Increasing.le_last {gs : List TaggedFill} (h : Increasing gs) :
    ∀ g ∈ gs, ∀ n ∈ gs.getLast?.map (·.seq), g.seq ≤ n := by
  induction gs with
  | nil => simp
  | cons g rest ih =>
    intro x hx n hn
    rw [List.getLast?_cons] at hn
    rw [Increasing, List.pairwise_cons] at h
    cases hl : rest.getLast? with
    | none =>
      rw [List.getLast?_eq_none_iff] at hl
      subst hl
      simp only [List.mem_singleton] at hx
      simp at hn
      rw [hx, hn]
      exact UInt64.le_refl _
    | some y =>
      rw [hl] at hn
      simp only [Option.getD_some, Option.map_some, Option.mem_def, Option.some.injEq] at hn
      have hy : y ∈ rest := List.mem_of_getLast? hl
      rcases List.mem_cons.1 hx with rfl | hx
      · exact hn ▸ UInt64.le_of_lt (h.1 y hy)
      · exact ih h.2 x hx n (by rw [hl]; exact hn.symm ▸ rfl)

/-- Increasing fills followed by a batch above the last of them are increasing. -/
theorem Increasing.append {gs batch : List TaggedFill} (hg : Increasing gs) (hb : Increasing batch)
    (habove : ∀ tf ∈ batch, ∀ n ∈ gs.getLast?.map (·.seq), n < tf.seq) : Increasing (gs ++ batch) := by
  refine List.pairwise_append.2 ⟨hg, hb, fun a ha b hb' => ?_⟩
  cases hl : gs.getLast? with
  | none =>
    rw [List.getLast?_eq_none_iff] at hl
    subst hl
    cases ha
  | some g =>
    have hn : g.seq ∈ gs.getLast?.map (·.seq) := by rw [hl]; rfl
    exact UInt64.lt_of_le_of_lt (hg.le_last a ha g.seq hn) (habove b hb' g.seq hn)

theorem applyCanonical_nil (l : Ledger) : l.applyCanonical [] = .ok l := by
  simp [applyCanonical, TaggedFill.sortCanonical, checkBatch]
  rfl

theorem ofFills_append (c : Int64) (gs hs : List TaggedFill) :
    ofFills c (gs ++ hs) =
      ((ofFills c gs).recordAll (fillEntries hs)).withLastSeq ((hs.getLast?.map (·.seq)).or (ofFills c gs).lastSeq) := by
  rw [ofFills, ofFills, recordAll_withLastSeq, withLastSeq_withLastSeq, fillEntries_append, recordAll_append,
    lastSeq_withLastSeq, List.getLast?_append, Option.map_or]

/-- An accepted batch extends the fills of the ledger by the batch in canonical order. -/
theorem applyCanonical_ofFills {c : Int64} {gs batch : List TaggedFill} {l' : Ledger}
    (h : (ofFills c gs).applyCanonical batch = .ok l') :
    l' = ofFills c (gs ++ TaggedFill.sortCanonical batch) ∧
      (∀ tf ∈ TaggedFill.sortCanonical batch, tf.fill.check = none) ∧
      Increasing (TaggedFill.sortCanonical batch) ∧
      ∀ tf ∈ TaggedFill.sortCanonical batch, ∀ n ∈ gs.getLast?.map (·.seq), n < tf.seq := by
  obtain ⟨hcheck, rfl⟩ := applyCanonical_eq_ok.1 h
  exact ⟨(ofFills_append c gs _).symm, checkBatch_eq_none_iff.1 hcheck⟩

/-- A batch that passes its check after the ledger's fills extends them in canonical order. -/
theorem applyCanonical_ofFills_of_checkBatch {c : Int64} {gs batch : List TaggedFill}
    (h : checkBatch (gs.getLast?.map (·.seq)) (TaggedFill.sortCanonical batch) = none) :
    (ofFills c gs).applyCanonical batch = .ok (ofFills c (gs ++ TaggedFill.sortCanonical batch)) :=
  applyCanonical_eq_ok.2 ⟨h, ofFills_append c gs _⟩

/-- A single fill is accepted as a batch exactly when it is appended on its own. -/
theorem applyCanonical_singleton {l l' : Ledger} {tf : TaggedFill} :
    l.applyCanonical [tf] = .ok l' ↔ l.appendFillSeq tf.fill tf.seq = .ok l' := by
  rw [applyCanonical_eq_ok, TaggedFill.sortCanonical_singleton, checkBatch_cons_eq_none]
  unfold appendFillSeq
  cases hs : seqAllowed l.lastSeq tf.seq <;> cases hc : tf.fill.check <;>
    simp [checkBatch, recordAll, fillEntries, withLastSeq, eq_comm]

/-- A fill appended on its own joins the ledger's fills, valid and above the last of them. -/
theorem appendFillSeq_ofFills {c : Int64} {gs : List TaggedFill} {tf : TaggedFill} {l' : Ledger}
    (h : (ofFills c gs).appendFillSeq tf.fill tf.seq = .ok l') :
    l' = ofFills c (gs ++ [tf]) ∧ tf.fill.check = none ∧ ∀ n ∈ gs.getLast?.map (·.seq), n < tf.seq := by
  obtain ⟨hl, hchk, -, habove⟩ := applyCanonical_ofFills (applyCanonical_singleton.2 h)
  rw [TaggedFill.sortCanonical_singleton] at hl hchk habove
  exact ⟨hl, hchk tf List.mem_cons_self, habove tf List.mem_cons_self⟩

/-- Fills with distinct numbers, in any order, sort canonically into the increasing order of their
numbers. -/
theorem sortCanonical_of_perm {gs hs : List TaggedFill} (hinc : Increasing gs) (hp : hs.Perm gs) :
    TaggedFill.sortCanonical hs = gs := by
  have hperm := (TaggedFill.sortCanonical_perm hs).trans hp
  have hseq : ∀ a ∈ gs, ∀ b ∈ gs, a.seq = b.seq → a = b :=
    List.inj_on_of_nodup_map (List.pairwise_map.2 (hinc.imp fun h => UInt64.ne_of_lt h))
  -- both lists are in canonical order and hold the same fills, and on them the order is
  -- antisymmetric: the number comes first
  refine hperm.eq_of_pairwise (fun a b ha hb hab hba => ?_) (TaggedFill.inOrder_sortCanonical hs)
    (hinc.imp fun h => ?_)
  · by_cases heq : a.seq = b.seq
    · exact hseq a (hperm.subset ha) b hb heq
    · rcases UInt64.lt_or_lt_of_ne heq with hlt | hgt
      · exact absurd (TaggedFill.canonical_of_seq_gt hlt) hba
      · exact absurd (TaggedFill.canonical_of_seq_gt hgt) hab
  · rw [TaggedFill.canonical_of_seq_lt h]
    decide

/-- A batch is refused when its canonical order fails the check. -/
theorem applyCanonical_toOption_of_checkBatch {l : Ledger} {batch : List TaggedFill}
    (h : checkBatch l.lastSeq (TaggedFill.sortCanonical batch) ≠ none) : (l.applyCanonical batch).toOption = none := by
  cases hA : l.applyCanonical batch with
  | error e => rfl
  | ok l' => exact absurd (applyCanonical_eq_ok.1 hA).1 h

/-- A batch is applied through its canonical order alone. -/
theorem applyCanonical_congr {l : Ledger} {b₁ b₂ : List TaggedFill}
    (h : TaggedFill.sortCanonical b₁ = TaggedFill.sortCanonical b₂) : l.applyCanonical b₁ = l.applyCanonical b₂ := by
  unfold applyCanonical
  rw [h]

/-- A batch whose canonical order passes the check has it as the canonical order of every
permutation: the numbers increase strictly along it, so no two fills tie. -/
theorem sortCanonical_perm_of_checkBatch {last : Option UInt64} {b₁ b₂ : List TaggedFill} (hp : b₁.Perm b₂)
    (h : checkBatch last (TaggedFill.sortCanonical b₁) = none) :
    TaggedFill.sortCanonical b₂ = TaggedFill.sortCanonical b₁ := by
  have hinc : Increasing (TaggedFill.sortCanonical b₁) := (checkBatch_eq_none_iff.1 h).2.1
  exact sortCanonical_of_perm hinc (hp.symm.trans (List.mergeSort_perm b₁ _).symm)

/-- **A batch applies the same in any order.** Of two batches that are permutations of each
other, the ledger refuses both or accepts both, and accepted they leave the same ledger: the same
standing, log and last number. The sort is stable, so fills that tie in every key keep their
given order; but tied fills share a number, and a batch with two fills of one number is refused
whatever its order. -/
theorem applyCanonical_perm (l : Ledger) {b₁ b₂ : List TaggedFill} (hp : b₁.Perm b₂) :
    (l.applyCanonical b₁).toOption = (l.applyCanonical b₂).toOption := by
  by_cases h₁ : checkBatch l.lastSeq (TaggedFill.sortCanonical b₁) = none
  · rw [applyCanonical_congr (sortCanonical_perm_of_checkBatch hp h₁).symm]
  by_cases h₂ : checkBatch l.lastSeq (TaggedFill.sortCanonical b₂) = none
  · rw [applyCanonical_congr (sortCanonical_perm_of_checkBatch hp.symm h₂)]
  rw [applyCanonical_toOption_of_checkBatch h₁, applyCanonical_toOption_of_checkBatch h₂]

/-- Two fills of one batch given in either order: the later number first, or the earlier. -/
theorem applyCanonical_swapped :
    [(⟨2, ⟨"B", .sell, 3, 7, 0⟩⟩ : TaggedFill), ⟨1, ⟨"A", .buy, 5, 9, 1⟩⟩].Perm
        [⟨1, ⟨"A", .buy, 5, 9, 1⟩⟩, ⟨2, ⟨"B", .sell, 3, 7, 0⟩⟩] ∧
      ((Ledger.new 100).applyCanonical [⟨2, ⟨"B", .sell, 3, 7, 0⟩⟩, ⟨1, ⟨"A", .buy, 5, 9, 1⟩⟩]).toOption =
        ((Ledger.new 100).applyCanonical [⟨1, ⟨"A", .buy, 5, 9, 1⟩⟩, ⟨2, ⟨"B", .sell, 3, 7, 0⟩⟩]).toOption :=
  ⟨List.Perm.swap _ _ _, applyCanonical_perm _ (List.Perm.swap _ _ _)⟩

end Ledger

end TradeDesk
