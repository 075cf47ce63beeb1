import TradeDesk.Proofs.Ledger.Positions
import TradeDesk.Ledger.Journal
import Mathlib.Algebra.Ring.Int.Defs
/-!
# Lots on one side

A fill walks the lots of its position oldest first, closing those on the other side
(`Fifo.close`), and opens a lot of its own side with whatever it did not use (`Fifo.trade`). When
the lots start on one side they end on one side: a walk that closes lots keeps only lots of their
side, and leaves quantity over only once it has closed them all (`close_onSide`); a walk over lots
of the fill's own side closes none (`close_of_keeps`). Either way the quantity the lots hold moves
by exactly the fill's signed quantity (`trade_onSide`).

The fills that reach the walk are the checked ones: a buy or a sell of a positive quantity
(`Fill.check_eq_none_iff`).
-/

namespace TradeDesk

/-! ### Checked fills -/

/-- The sign of a side: a buy counts up, a sell down, another side not at all. -/
def Side.sign : Side → Int
  | .buy => 1
  | .sell => -1
  | .other _ _ => 0

/-- A fill passes its check exactly when its symbol is not blank, its side is a buy or a sell,
its quantity is positive, and neither its price nor its fee is negative. -/
theorem Fill.check_eq_none_iff {f : Fill} :
    f.check = none ↔ Text.isBlank f.symbol = false ∧ f.side.valid = true ∧ 0 < f.qty.toInt ∧
      0 ≤ f.price.toInt ∧ 0 ≤ f.fee.toInt := by
  unfold Fill.check
  simp only [Int64.le_iff_toInt_le, Int64.lt_iff_toInt_lt, Int64.toInt_zero]
  split_ifs <;> simp_all

theorem Fill.side_of_check {f : Fill} (h : f.check = none) : ∃ sells : Bool, f.side = if sells then .sell else .buy := by
  have hv := (Fill.check_eq_none_iff.1 h).2.1
  cases hs : f.side with
  | buy => exact ⟨false, rfl⟩
  | sell => exact ⟨true, rfl⟩
  | other t => rw [hs] at hv; cases hv

theorem Fill.onLots_of_side {f : Fill} {sells : Bool} (h : f.side = if sells then .sell else .buy)
    (lots : List Lot) (realized : Int64) : f.onLots lots realized = Fifo.trade sells lots realized f.qty f.price := by
  cases sells <;> simp only [Fill.onLots, h, if_true, if_false, Bool.false_eq_true] <;> rfl

theorem Side.sign_of_sells (sells : Bool) : (if sells then Side.sell else Side.buy).sign = if sells then -1 else 1 := by
  cases sells <;> rfl

/-! ### The walk -/

namespace Fifo

/-- The quantity lots hold, exactly: long lots count up and short ones down. -/
def held (lots : List Lot) : Int := (lots.map fun l => l.qty.toInt).sum

@[simp] theorem held_nil : held [] = 0 := rfl

@[simp] theorem held_cons (l : Lot) (lots : List Lot) : held (l :: lots) = l.qty.toInt + held lots := by
  simp [held]

@[simp] theorem held_append (a b : List Lot) : held (a ++ b) = held a + held b := by
  simp [held]

/-- Lots on one side. -/
def OneSided (lots : List Lot) : Prop := ∃ long, ∀ l ∈ lots, l.OnSide long

theorem held_ne_zero {long : Bool} {lots : List Lot} (hne : lots ≠ []) (hl : ∀ l ∈ lots, l.OnSide long) :
    held lots ≠ 0 := by
  -- every lot pushes the total further from zero on its side
  have hside : ∀ lots : List Lot, (∀ l ∈ lots, l.OnSide long) →
      if long then 0 ≤ held lots else held lots ≤ 0 := by
    intro lots hl
    induction lots with
    | nil => cases long <;> simp
    | cons l rest ih =>
      have hl₀ := hl l List.mem_cons_self
      have ih := ih (fun x hx => hl x (List.mem_cons_of_mem l hx))
      cases long <;> simp only [Lot.onSide_true, Lot.onSide_false, if_true, if_false, Bool.false_eq_true] at hl₀ ih ⊢ <;>
        rw [held_cons] <;> omega
  obtain ⟨l, rest, rfl⟩ := List.exists_cons_of_ne_nil hne
  have hl₀ := hl l List.mem_cons_self
  have hrest := hside rest (fun x hx => hl x (List.mem_cons_of_mem l hx))
  rw [held_cons]
  cases long <;> simp only [Lot.onSide_true, Lot.onSide_false, if_true, if_false, Bool.false_eq_true] at hl₀ hrest <;>
    omega

/-- A lot made from a positive word, on the side asked for. -/
theorem onSide_signed (long : Bool) {x : Int64} (hx : 0 < x.toInt) (entry : Int64) :
    Lot.OnSide long { qty := if long then x else -x, entry } ∧
      ({ qty := if long then x else -x, entry } : Lot).qty.toInt = if long then x.toInt else -x.toInt := by
  have hmax := Int64.toInt_le x
  have hmin := Int64.toInt_minValue
  have hmax' := Int64.toInt_maxValue
  cases long
  · have hneg : (-x).toInt = -x.toInt := toInt_neg_of_ne (fun he => by rw [he] at hx; omega)
    show Lot.OnSide false ⟨-x, entry⟩ ∧ (-x).toInt = -x.toInt
    rw [Lot.onSide_false, hneg]
    omega
  · exact ⟨hx, rfl⟩

/-- A walk over lots none of which the fill closes keeps them all, and the whole quantity. -/
theorem close_of_keeps {sells : Bool} {px : Int64} {lots : List Lot} (h : ∀ l ∈ lots, l.OnSide !sells)
    (realized qty : Int64) : close sells px lots realized qty = (lots, realized, qty) := by
  induction lots with
  | nil => rfl
  | cons l rest ih =>
    have hk := Lot.keeps_of_onSide (h l List.mem_cons_self)
    have ih := ih (fun x hx => h x (List.mem_cons_of_mem l hx))
    simp only [close, hk, Bool.not_false, or_true, if_true, ih]

/-- What a closing step keeps of a lot, if anything, is on the lot's side. -/
theorem onSide_leftover (sells : Bool) {left : Int64} (entry : Int64) :
    ∀ x ∈ (if 0 < left then [({ qty := if sells then left else -left, entry } : Lot)] else []), x.OnSide sells := by
  split
  · rename_i hpos
    intro x hx
    rw [List.mem_singleton] at hx
    rw [hx]
    exact (onSide_signed sells (pos_iff_toInt.1 hpos) entry).1
  · intro x hx
    cases hx

/-- What a closing step keeps of a lot holds what was left of it. -/
theorem held_leftover (sells : Bool) {left : Int64} (hl : 0 ≤ left.toInt) (entry : Int64) :
    held (if 0 < left then [({ qty := if sells then left else -left, entry } : Lot)] else []) =
      if sells then left.toInt else -left.toInt := by
  by_cases hpos : 0 < left
  · rw [if_pos hpos, held_cons, held_nil, (onSide_signed sells (pos_iff_toInt.1 hpos) entry).2, add_zero]
  · have hzero : left.toInt = 0 := by
      rw [pos_iff_toInt] at hpos
      omega
    rw [if_neg hpos, held_nil, hzero]
    simp

/-- One closing step in words: the walk closes the smaller of the lot's size and the quantity
left, and what remains of either is exact. -/
theorem closing_words {sells : Bool} {l : Lot} {qty : Int64} (hl : l.OnSide sells) (hq : 0 ≤ qty.toInt) :
    0 < l.size.toInt ∧ l.size.toInt = (if sells then l.qty.toInt else -l.qty.toInt) ∧
      (min l.size qty).toInt = min l.size.toInt qty.toInt ∧
      (l.size - min l.size qty).toInt = l.size.toInt - (min l.size qty).toInt ∧
      (qty - min l.size qty).toInt = qty.toInt - (min l.size qty).toInt := by
  have hS := Lot.toInt_size hl
  have hN := toInt_min l.size qty
  have hsize : 0 < l.size.toInt := by
    rw [hS]
    cases sells <;> simp only [Lot.onSide_true, Lot.onSide_false] at hl <;> simp <;> omega
  refine ⟨hsize, hS, hN, ?_, ?_⟩
  · exact Int64.toInt_sub_of_le _ _ (Int64.le_iff_toInt_le.2 (by rw [hN, Int64.toInt_zero]; omega))
      (Int64.le_iff_toInt_le.2 (by omega))
  · exact Int64.toInt_sub_of_le _ _ (Int64.le_iff_toInt_le.2 (by rw [hN, Int64.toInt_zero]; omega))
      (Int64.le_iff_toInt_le.2 (by omega))

/-- A walk closing lots on their side. What it keeps stays on that side, the quantity left over
is between zero and the fill's, and is left only once every lot is closed; the quantity held
moves towards zero by what was closed. -/
theorem close_onSide {sells : Bool} {px : Int64} {lots : List Lot} :
    ∀ {realized qty : Int64} {kept : List Lot} {r q : Int64},
      close sells px lots realized qty = (kept, r, q) → (∀ l ∈ lots, l.OnSide sells) → 0 ≤ qty.toInt →
        (∀ l ∈ kept, l.OnSide sells) ∧ 0 ≤ q.toInt ∧ q.toInt ≤ qty.toInt ∧ (0 < q.toInt → kept = []) ∧
          held kept = held lots + (if sells then q.toInt - qty.toInt else qty.toInt - q.toInt) := by
  induction lots with
  | nil =>
    intro realized qty kept r q h _ hq
    simp only [close, Prod.mk.injEq] at h
    obtain ⟨rfl, -, rfl⟩ := h
    refine ⟨by simp, hq, le_refl _, fun _ => rfl, ?_⟩
    cases sells <;> simp
  | cons l rest ih =>
    intro realized qty kept r q h hlots hq
    have hl : l.OnSide sells := hlots l List.mem_cons_self
    have hrest : ∀ x ∈ rest, x.OnSide sells := fun x hx => hlots x (List.mem_cons_of_mem l hx)
    simp only [close, Lot.closes_of_onSide hl, Bool.not_true, Bool.false_eq_true, or_false] at h
    split at h
    · rename_i hzero
      rcases hc : close sells px rest realized qty with ⟨kept', r', q'⟩
      rw [hc] at h
      simp only [Prod.mk.injEq] at h
      obtain ⟨rfl, -, rfl⟩ := h
      obtain ⟨hk, hq₀, hqq, -, hheld⟩ := ih hc hrest hq
      have hz : qty.toInt = 0 := eq_zero_iff_toInt.1 hzero
      refine ⟨?_, hq₀, hqq, fun h' => by omega, ?_⟩
      · intro x hx
        rcases List.mem_cons.1 hx with rfl | hx
        · exact hl
        · exact hk x hx
      · rw [held_cons, held_cons, hheld]
        cases sells <;> simp only [if_true, if_false, Bool.false_eq_true] <;> omega
    · rename_i hclose
      have hq' : 0 < qty.toInt := by
        have : qty.toInt ≠ 0 := fun h' => hclose (eq_zero_iff_toInt.2 h')
        omega
      obtain ⟨hsize, hS, hN, hL, hK⟩ := closing_words hl hq
      generalize hc : close sells px rest _ (qty - min l.size qty) = c at h
      obtain ⟨kept', r', q'⟩ := c
      generalize l.size - min l.size qty = left at h hL
      simp only [Prod.mk.injEq] at h
      obtain ⟨rfl, -, rfl⟩ := h
      obtain ⟨hk, hq₀, hqq, hall, hheld⟩ := ih hc hrest (by omega)
      have hnn : 0 ≤ left.toInt := by omega
      refine ⟨?_, hq₀, by omega, ?_, ?_⟩
      · intro x hx
        rcases List.mem_append.1 hx with hx | hx
        · exact onSide_leftover sells l.entry x hx
        · exact hk x hx
      · -- quantity left over means this lot was closed whole
        intro hpos
        have hleft : ¬ 0 < left := by
          rw [pos_iff_toInt]
          omega
        rw [if_neg hleft, hall hpos, List.nil_append]
      · rw [held_append, held_leftover sells hnn l.entry, held_cons, hheld]
        cases sells <;> simp only [if_true, if_false, Bool.false_eq_true] at hS ⊢ <;> omega

/-- The lot a fill opens with the quantity it did not use is on the fill's own side. -/
theorem onSide_opened (sells : Bool) {q : Int64} (hq : 0 < q.toInt) (px : Int64) :
    Lot.OnSide (!sells) { qty := if sells then -q else q, entry := px } ∧
      ({ qty := if sells then -q else q, entry := px } : Lot).qty.toInt = if sells then -q.toInt else q.toInt := by
  have h := onSide_signed (!sells) hq px
  cases sells <;> exact h

/-- **A fill keeps a position's lots on one side.** Lots on one side, traded by a fill of a
positive quantity, are on one side after it, and the quantity they hold moves by the fill's
signed quantity. -/
theorem trade_onSide {sells : Bool} {lots : List Lot} {realized qty px : Int64} (hl : OneSided lots)
    (hq : 0 < qty.toInt) :
    OneSided (trade sells lots realized qty px).1 ∧
      held (trade sells lots realized qty px).1 = held lots + (if sells then -qty.toInt else qty.toInt) := by
  obtain ⟨long, hl⟩ := hl
  by_cases hs : long = sells
  · subst hs
    rcases hc : close long px lots realized qty with ⟨kept, r, q⟩
    obtain ⟨hk, hq₀, hqq, hall, hheld⟩ := close_onSide hc hl hq.le
    unfold trade
    rw [hc]
    dsimp only
    by_cases hpos : 0 < q
    · have hpos' : 0 < q.toInt := by rwa [pos_iff_toInt] at hpos
      rw [if_pos hpos, hall hpos', List.nil_append]
      obtain ⟨hside, hqty⟩ := onSide_opened long hpos' px
      refine ⟨⟨!long, fun x hx => by rw [List.mem_singleton.1 hx]; exact hside⟩, ?_⟩
      rw [held_cons, held_nil, hqty]
      rw [hall hpos', held_nil] at hheld
      cases long <;> simp only [if_true, if_false, Bool.false_eq_true] at hheld ⊢ <;> omega
    · have hzero : q.toInt = 0 := by
        rw [pos_iff_toInt] at hpos
        omega
      rw [if_neg hpos]
      refine ⟨⟨long, hk⟩, ?_⟩
      rw [hheld, hzero]
      cases long <;> simp
  · have hl' : ∀ l ∈ lots, l.OnSide !sells := by
      have : long = !sells := by cases long <;> cases sells <;> simp_all
      exact this ▸ hl
    unfold trade
    rw [close_of_keeps hl']
    dsimp only
    obtain ⟨hside, hqty⟩ := onSide_opened sells hq px
    rw [if_pos (by rwa [pos_iff_toInt])]
    refine ⟨⟨!sells, fun x hx => ?_⟩, ?_⟩
    · rcases List.mem_append.1 hx with hx | hx
      · exact hl' x hx
      · rw [List.mem_singleton.1 hx]
        exact hside
    · rw [held_append, held_cons, held_nil, hqty]
      omega

end Fifo

end TradeDesk
