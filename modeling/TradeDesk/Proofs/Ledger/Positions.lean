import TradeDesk.Ledger.Fifo
import Mathlib.Data.String.Basic
/-!
# Positions as the ledger keeps them

A lot is on one side when it is long, or short without being the least word. A position's net
quantity is summed with saturation, and when its lots are all on one side every partial sum stays
on that side: the net quantity of lots on one side is never zero, however far it saturates, and
such a position is flat exactly when it has no lots (`Position.isFlat_eq_isEmpty`).

The holdings are a list ordered strictly by symbol, and so a map from symbols to positions:
`find?` answers the one position of a symbol, while `put` sets it and `erase` removes it, each
changing what `find?` answers for that symbol alone (`find?_put`, `find?_erase`) and keeping the
order (`Sorted.put`, `Sorted.erase`).
-/

namespace TradeDesk

/-! ### Lots on one side -/

namespace Lot

/-- A lot on one side: a long lot holds a positive quantity, a short one a negative quantity
other than the least word. -/
def OnSide (long : Bool) (l : Lot) : Prop :=
  if long then 0 < l.qty.toInt else Int64.minValue.toInt < l.qty.toInt ∧ l.qty.toInt < 0

@[simp] theorem onSide_true (l : Lot) : l.OnSide true ↔ 0 < l.qty.toInt := Iff.rfl

@[simp] theorem onSide_false (l : Lot) :
    l.OnSide false ↔ Int64.minValue.toInt < l.qty.toInt ∧ l.qty.toInt < 0 := Iff.rfl

theorem isLong_eq (l : Lot) : l.isLong = decide (0 < l.qty.toInt) := by
  simp only [isLong, pos_iff_toInt]

theorem isShort_eq (l : Lot) : l.isShort = decide (l.qty.toInt < 0) := by
  simp only [isShort, neg_iff_toInt]

theorem ne_minValue {long : Bool} {l : Lot} (h : l.OnSide long) : l.qty ≠ Int64.minValue := by
  intro he
  have hmin := Int64.toInt_minValue
  cases long <;> simp only [onSide_true, onSide_false, he] at h <;> omega

/-- The size of a lot on one side is its quantity without the sign. -/
theorem toInt_size {long : Bool} {l : Lot} (h : l.OnSide long) :
    l.size.toInt = if long then l.qty.toInt else -l.qty.toInt := by
  have hne := ne_minValue h
  unfold size
  have hlt : l.qty < 0 ↔ l.qty.toInt < 0 := neg_iff_toInt
  cases long <;> simp only [onSide_true, onSide_false] at h
  · rw [if_pos (hlt.2 h.2), toInt_neg_of_ne hne]
    rfl
  · rw [if_neg (fun h' => by have := hlt.1 h'; omega)]
    rfl

/-- A lot on the side a fill closes is closed by it: long lots by a sell, short ones by a buy. -/
theorem closes_of_onSide {sells : Bool} {l : Lot} (h : l.OnSide sells) :
    (if sells then l.isLong else l.isShort) = true := by
  cases sells <;> simp only [onSide_true, onSide_false] at h <;> simp [isLong_eq, isShort_eq, h]

/-- A lot on the other side is left alone. -/
theorem keeps_of_onSide {sells : Bool} {l : Lot} (h : l.OnSide !sells) :
    (if sells then l.isLong else l.isShort) = false := by
  cases sells <;> simp only [Bool.not_true, Bool.not_false, onSide_true, onSide_false] at h <;>
    simp [isLong_eq, isShort_eq] <;> omega

end Lot

/-! ### Net quantities -/

namespace Position

/-- Quantities of lots on one side, summed with saturation from an amount on that side, stay on
that side. -/
theorem foldl_satAdd_onSide {long : Bool} :
    ∀ {lots : List Lot}, (∀ l ∈ lots, l.OnSide long) → ∀ q : Int64,
      (if long then 0 < q.toInt else q.toInt < 0) →
        (if long then 0 < (lots.foldl (fun q l => satAdd q l.qty) q).toInt
          else (lots.foldl (fun q l => satAdd q l.qty) q).toInt < 0) := by
  intro lots
  induction lots with
  | nil => intro _ q hq; exact hq
  | cons l rest ih =>
    intro hl q hq
    have hl₀ := hl l List.mem_cons_self
    have hmin := Int64.toInt_minValue
    have hmax := Int64.toInt_maxValue
    refine ih (fun x hx => hl x (List.mem_cons_of_mem l hx)) (satAdd q l.qty) ?_
    rw [toInt_satAdd]
    cases long <;> simp only [Lot.onSide_true, Lot.onSide_false, Bool.false_eq_true, if_false, if_true] at hl₀ hq ⊢ <;>
      omega

theorem qtySigned_ne_zero {long : Bool} {p : Position} (hne : p.lots ≠ []) (hl : ∀ l ∈ p.lots, l.OnSide long) :
    p.qtySigned ≠ 0 := by
  obtain ⟨l, rest, hlots⟩ := List.exists_cons_of_ne_nil hne
  have hl₀ : l.OnSide long := hl l (by rw [hlots]; exact List.mem_cons_self)
  have hfirst : (satAdd 0 l.qty).toInt = l.qty.toInt := by
    have hlo := Int64.minValue_le_toInt l.qty
    have hhi := Int64.toInt_le l.qty
    rw [toInt_satAdd, Int64.toInt_zero]
    omega
  have hsum := @foldl_satAdd_onSide long rest (fun x hx => hl x (by rw [hlots]; exact List.mem_cons_of_mem l hx))
    (satAdd 0 l.qty) (by rw [hfirst]; cases long <;> simp only [Lot.onSide_true, Lot.onSide_false] at hl₀ <;> simp [hl₀])
  have hnet : p.qtySigned = rest.foldl (fun q l => satAdd q l.qty) (satAdd 0 l.qty) := by
    rw [qtySigned, hlots, List.foldl_cons]
  intro hz
  rw [hnet, eq_zero_iff_toInt] at hz
  rw [hz] at hsum
  cases long <;> simp at hsum

/-- A position whose lots are on one side is flat exactly when it has no lots. -/
theorem isFlat_eq_isEmpty {long : Bool} {p : Position} (hl : ∀ l ∈ p.lots, l.OnSide long) :
    p.isFlat = p.lots.isEmpty := by
  unfold isFlat
  cases hlots : p.lots with
  | nil => rfl
  | cons l rest =>
    have hz := qtySigned_ne_zero (by rw [hlots]; exact List.cons_ne_nil l rest) hl
    simp [hz]

end Position

/-! ### Holdings as a map -/

namespace Holdings

/-- Ordered strictly by symbol, so one position per symbol. -/
def Sorted (h : Holdings) : Prop := h.Pairwise (·.symbol < ·.symbol)

theorem find?_cons (p : Position) (h : Holdings) (s : String) :
    find? (p :: h) s = if p.symbol = s then some p else find? h s := by
  by_cases hs : p.symbol = s <;> simp [find?, hs]

theorem find?_nil (s : String) : find? [] s = none := rfl

/-- The position found for a symbol is one of the holdings and has that symbol. -/
theorem find?_eq_some {h : Holdings} {s : String} {p : Position} (hf : h.find? s = some p) :
    p ∈ h ∧ p.symbol = s := by
  have hmem := List.mem_of_find?_eq_some hf
  have hsym := List.find?_some hf
  exact ⟨hmem, by simpa using hsym⟩

theorem mem_put {h : Holdings} {p x : Position} (hx : x ∈ h.put p) : x = p ∨ x ∈ h := by
  induction h with
  | nil => simp only [put, List.mem_singleton] at hx; exact .inl hx
  | cons q rest ih =>
    unfold put at hx
    split at hx
    · rcases List.mem_cons.1 hx with rfl | hx
      · exact .inl rfl
      · exact .inr hx
    · split at hx
      · rcases List.mem_cons.1 hx with rfl | hx
        · exact .inl rfl
        · exact .inr (List.mem_cons_of_mem q hx)
      · rcases List.mem_cons.1 hx with rfl | hx
        · exact .inr List.mem_cons_self
        · exact (ih hx).imp_right (List.mem_cons_of_mem q)

theorem mem_erase {h : Holdings} {s : String} {x : Position} (hx : x ∈ h.erase s) : x ∈ h ∧ x.symbol ≠ s := by
  simpa [erase] using hx

theorem find?_put (h : Holdings) (p : Position) (s : String) :
    (h.put p).find? s = if p.symbol = s then some p else h.find? s := by
  induction h with
  | nil => rw [put, find?_cons]
  | cons q rest ih =>
    unfold put
    split
    · rw [find?_cons]
    · split
      · rename_i heq
        rw [find?_cons, find?_cons]
        by_cases hp : p.symbol = s
        · simp only [if_pos hp]
        · simp only [if_neg hp, if_neg (show ¬ q.symbol = s from heq ▸ hp)]
      · rename_i hne
        rw [find?_cons, find?_cons, ih]
        by_cases hq : q.symbol = s
        · have hp : ¬ p.symbol = s := fun hp => hne (hp.trans hq.symm)
          simp only [if_pos hq, if_neg hp]
        · simp only [if_neg hq]

theorem find?_erase (h : Holdings) (sym s : String) :
    (h.erase sym).find? s = if sym = s then none else h.find? s := by
  induction h with
  | nil => simp [erase, find?_nil]
  | cons q rest ih =>
    have hrest : (Holdings.erase rest sym).find? s = if sym = s then none else Holdings.find? rest s := ih
    by_cases hq : q.symbol = sym
    · have he : Holdings.erase (q :: rest) sym = Holdings.erase rest sym := by simp [erase, hq]
      rw [he, hrest, find?_cons]
      by_cases hs : sym = s
      · rw [if_pos hs, if_pos hs]
      · rw [if_neg hs, if_neg hs, if_neg (fun h' => hs (hq.symm.trans h'))]
    · have he : Holdings.erase (q :: rest) sym = q :: Holdings.erase rest sym := by simp [erase, hq]
      rw [he, find?_cons, find?_cons, hrest]
      by_cases hs : sym = s
      · rw [if_pos hs, if_pos hs, if_neg (fun h' => hq (h'.trans hs.symm))]
      · rw [if_neg hs, if_neg hs]

theorem Sorted.put {h : Holdings} (hs : h.Sorted) (p : Position) : (h.put p).Sorted := by
  induction h with
  | nil => exact List.pairwise_singleton _ p
  | cons q rest ih =>
    rw [Sorted, List.pairwise_cons] at hs
    unfold Holdings.put
    split
    · rename_i hlt
      refine List.pairwise_cons.2 ⟨?_, List.pairwise_cons.2 hs⟩
      intro x hx
      rcases List.mem_cons.1 hx with rfl | hx
      · exact hlt
      · exact String.lt_trans hlt (hs.1 x hx)
    · split
      · rename_i _ heq
        refine List.pairwise_cons.2 ⟨fun x hx => ?_, hs.2⟩
        rw [heq]
        exact hs.1 x hx
      · rename_i hnlt hne
        refine List.pairwise_cons.2 ⟨fun x hx => ?_, ih hs.2⟩
        rcases mem_put hx with rfl | hx
        · rcases lt_trichotomy x.symbol q.symbol with h' | h' | h'
          · exact absurd h' hnlt
          · exact absurd h' hne
          · exact h'
        · exact hs.1 x hx

theorem Sorted.erase {h : Holdings} (hs : h.Sorted) (s : String) : (h.erase s).Sorted :=
  List.Pairwise.filter _ hs

/-- In sorted holdings each position is the one found for its symbol. -/
theorem Sorted.find?_of_mem {h : Holdings} (hs : h.Sorted) {p : Position} (hp : p ∈ h) : h.find? p.symbol = some p := by
  induction h with
  | nil => cases hp
  | cons q rest ih =>
    rw [Sorted, List.pairwise_cons] at hs
    rw [find?_cons]
    rcases List.mem_cons.1 hp with rfl | hp
    · rw [if_pos rfl]
    · rw [if_neg (String.ne_of_lt (hs.1 p hp)), ih hs.2 hp]

end Holdings

end TradeDesk
