import TradeDesk.Ledger.Canonical
import Mathlib.Data.String.Basic
/-!
# One canonical order

The canonical comparison of tagged fills looks at the sequence numbers, then the symbols, then the
ranks of the sides, then the quantities, each in its own order, and the first that differs
decides. It is the lexicographic combination of four lawful comparisons (`canonical_eq_compareLex`),
so it is a total preorder whose ties are the fills that agree on all four keys.

The canonical sort is a stable merge sort by it. Its result is a permutation of the fills, in
non-decreasing canonical order, and the fills of each key come out in the order they went in
(`tiedWith_sortCanonical`): a sort of a sorted list changes nothing.
-/

namespace TradeDesk

namespace TaggedFill

theorem canonical_eq_compareLex :
    canonical = compareLex (compareOn (·.seq)) (compareLex (compareOn (·.fill.symbol))
      (compareLex (compareOn (·.fill.side.rank)) (compareOn (·.fill.qty)))) := rfl

instance transCmp_canonical : Std.TransCmp canonical := by
  rw [canonical_eq_compareLex]
  infer_instance

/-- One fill goes strictly before another by the first of the four keys in which they differ. -/
theorem canonical_eq_lt_iff {a b : TaggedFill} :
    canonical a b = .lt ↔ a.seq < b.seq ∨ a.seq = b.seq ∧ (a.fill.symbol < b.fill.symbol ∨
      a.fill.symbol = b.fill.symbol ∧ (a.fill.side.rank < b.fill.side.rank ∨
        a.fill.side.rank = b.fill.side.rank ∧ a.fill.qty < b.fill.qty)) := by
  simp only [canonical, Ordering.then_eq_lt, Std.compare_eq_lt, compare_lt_iff_lt, Std.compare_eq_iff_eq]

/-- The order the canonical sort produces: no fill after one it goes strictly before. -/
def InOrder (fs : List TaggedFill) : Prop := fs.Pairwise fun a b => canonical a b ≠ .gt

/-- The fills of `fs` with the key of `a`, in the order of `fs`. -/
def tiedWith (a : TaggedFill) (fs : List TaggedFill) : List TaggedFill := fs.filter fun b => canonical a b == .eq

theorem canonical_le_trans (a b c : TaggedFill) (hab : (canonical a b != .gt) = true)
    (hbc : (canonical b c != .gt) = true) : (canonical a c != .gt) = true := by
  simp only [bne_iff_ne, ne_eq] at hab hbc ⊢
  exact Std.TransCmp.le_trans hab hbc

theorem canonical_le_total (a b : TaggedFill) : ((canonical a b != .gt) || (canonical b a != .gt)) = true := by
  by_cases h : canonical a b = .gt
  · simp [Std.OrientedCmp.not_gt_of_gt h]
  · simp [h]

theorem sortCanonical_perm (fs : List TaggedFill) : (sortCanonical fs).Perm fs := List.mergeSort_perm _ _

theorem inOrder_sortCanonical (fs : List TaggedFill) : InOrder (sortCanonical fs) :=
  (List.pairwise_mergeSort canonical_le_trans canonical_le_total fs).imp fun h => by simpa using h

/-- Fills in canonical order already are their own sort. -/
theorem sortCanonical_of_inOrder {fs : List TaggedFill} (h : InOrder fs) : sortCanonical fs = fs :=
  List.mergeSort_of_pairwise (h.imp fun h => by simpa using h)

theorem sortCanonical_sortCanonical (fs : List TaggedFill) : sortCanonical (sortCanonical fs) = sortCanonical fs :=
  sortCanonical_of_inOrder (inOrder_sortCanonical fs)

/-- **The sort is stable**: the fills tied with any fill come out in the order they went in. -/
theorem tiedWith_sortCanonical (a : TaggedFill) (fs : List TaggedFill) :
    tiedWith a (sortCanonical fs) = tiedWith a fs := by
  -- the fills tied with `a` are tied with each other, so they are already sorted
  have hsorted : (tiedWith a fs).Pairwise fun b c => (canonical b c != .gt) = true := by
    refine List.Pairwise.imp_of_mem ?_ (List.pairwise_of_forall fun _ _ => trivial)
    intro b c hb hc _
    simp only [tiedWith, List.mem_filter, beq_iff_eq] at hb hc
    simp [Std.TransCmp.eq_trans (Std.OrientedCmp.eq_symm hb.2) hc.2]
  -- so they are a sublist of the sorted fills, and they are all of those tied with `a`
  have hsub : (tiedWith a fs).Sublist (sortCanonical fs) :=
    List.sublist_mergeSort canonical_le_trans canonical_le_total hsorted (List.filter_sublist)
  have hsub' : (tiedWith a fs).Sublist (tiedWith a (sortCanonical fs)) := by
    simpa only [tiedWith, List.filter_filter, Bool.and_self] using hsub.filter fun b => canonical a b == .eq
  exact (hsub'.eq_of_length ((sortCanonical_perm fs).filter _).length_eq.symm).symm

end TaggedFill

end TradeDesk
