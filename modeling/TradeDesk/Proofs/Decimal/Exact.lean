import TradeDesk.Proofs.Decimal.Rounding
/-!
# Laws of an exact decimal library

The desk calls a decimal library it takes as a parameter (`DecimalLib`). `DecimalLib.Exact L val`
says that the library computes on the values `val` gives its decimals, as shopspring's decimals
document: `new c e` is worth `c · 10^e` and is written as that coefficient and exponent are;
every text `Decimal.read` accepts is read to its value; a shift by `k` multiplies by `10^k`;
rounding to whole numbers cuts toward zero to tenths, adds five tenths away from zero and cuts the
tenths off (`roundByTenths`); decimals compare as their values do; and the integer part of a
whole value that fits a word is that value.

The executable library `Decimal.lib` keeps every law (`Decimal.lib_exact`). Its rescale cuts a
value counted in units of the new exponent toward zero (`Decimal.coeff_rescale`), which is the cut
its rounding and its integer part make, and it compares two decimals at the smaller exponent, where
neither is cut.
-/

namespace TradeDesk

/-- The laws a decimal library keeps when `val` gives the value of each of its decimals. -/
structure DecimalLib.Exact {D : Type} (L : DecimalLib D) (val : D → ℚ) : Prop where
  new : ∀ c e, val (L.new c e) = c.toInt * 10 ^ e
  ofInt : ∀ c, val (L.ofInt c) = c.toInt
  ofString : ∀ s r, Decimal.read s = .ok r → ∃ d, L.ofString s = .ok d ∧ val d = r.toRat
  text_new : ∀ c e, L.text (L.new c e) = (⟨c.toInt, e⟩ : Decimal).text
  shift : ∀ d k, val (L.shift d k) = val d * 10 ^ k
  round : ∀ d, val (L.round d 0) = roundByTenths (val d)
  cmp : ∀ a b, L.cmp a b = compare (val a) (val b)
  intPart : ∀ d (n : ℤ), val d = n → Int64.minValue.toInt ≤ n → n ≤ Int64.maxValue.toInt →
    (L.intPart d).toInt = n

/-- The Euclidean quotient by ten, moved up one when it is negative and leaves a remainder, is the
quotient truncated toward zero. -/
theorem ediv_ten_up_eq_tdiv (u : ℤ) : (if u / 10 < 0 ∧ u % 10 ≠ 0 then u / 10 + 1 else u / 10) = u.tdiv 10 := by
  rw [Int.tdiv_eq_ediv, show (10 : ℤ).sign = 1 from rfl]
  split <;> split <;> simp_all <;> omega

/-- An integer between the least and the greatest word is the integer of its word. -/
theorem toInt_ofInt_of_bounds {n : ℤ} (hlo : Int64.minValue.toInt ≤ n) (hhi : n ≤ Int64.maxValue.toInt) :
    (Int64.ofInt n).toInt = n := by
  rw [Int64.toInt_minValue] at hlo
  rw [Int64.toInt_maxValue] at hhi
  exact Int64.toInt_ofInt_of_le (by omega) (by omega)

namespace Decimal

@[simp] theorem toRat_mk (c e : ℤ) : (⟨c, e⟩ : Decimal).toRat = c * 10 ^ e := rfl

theorem intPow_ten (n : ℕ) : Int.pow 10 n = 10 ^ n := rfl

/-- Rescaling to exponent `e` cuts the value, counted in units of `10^e`, toward zero. -/
theorem coeff_rescale (d : Decimal) (e : ℤ) : (d.rescale e).coeff = cutToZero (d.toRat * 10 ^ (-e)) := by
  unfold rescale toRat
  simp only [intPow_ten]
  split
  · rename_i he
    have hval : (d.coeff : ℚ) * 10 ^ d.exp * 10 ^ (-e) = ((d.coeff * 10 ^ (d.exp - e).toNat : ℤ) : ℚ) := by
      rw [mul_assoc, ← zpow_add₀ (by norm_num), Int.cast_mul, Int.cast_pow, ← zpow_natCast,
        Int.toNat_of_nonneg (by omega), ← sub_eq_add_neg]
      norm_num
    rw [hval, cutToZero_intCast]
  · rename_i he
    have hval : (d.coeff : ℚ) * 10 ^ d.exp * 10 ^ (-e) = (d.coeff : ℚ) / ((10 ^ (e - d.exp).toNat : ℕ) : ℚ) := by
      rw [mul_assoc, ← zpow_add₀ (by norm_num), Nat.cast_pow, ← zpow_natCast, Int.toNat_of_nonneg (by omega),
        div_eq_mul_inv, ← zpow_neg, neg_sub, sub_eq_add_neg, Nat.cast_ofNat]
    rw [hval, cutToZero_div _ (by positivity)]
    push_cast
    rfl

/-- At an exponent no larger than its own, a decimal is rescaled exactly. -/
theorem toRat_rescale_of_le (d : Decimal) {e : ℤ} (he : e ≤ d.exp) : ((d.rescale e).coeff : ℚ) * 10 ^ e = d.toRat := by
  rw [rescale, if_pos he, toRat, intPow_ten]
  push_cast
  rw [← zpow_natCast, Int.toNat_of_nonneg (by omega), mul_assoc, ← zpow_add₀ (by norm_num)]
  ring_nf

theorem toRat_round_zero (d : Decimal) : (d.round 0).toRat = roundByTenths d.toRat := by
  unfold round
  split
  · rename_i h
    rw [show d.toRat = d.coeff by rw [toRat, h]; simp, roundByTenths_intCast]
  · have ht : (d.rescale (-1)).coeff = cutToZero (10 * d.toRat) := by
      rw [coeff_rescale, mul_comm]; norm_num
    simp only [toRat_mk, neg_zero, zero_sub, ht, zpow_zero, mul_one, ediv_ten_up_eq_tdiv, roundByTenths]

theorem cmp_eq (a b : Decimal) : a.cmp b = compare a.toRat b.toRat := by
  have hpos : (0 : ℚ) < 10 ^ min a.exp b.exp := by positivity
  rw [cmp, ← toRat_rescale_of_le a (min_le_left _ _), ← toRat_rescale_of_le b (min_le_right _ _),
    ← cmp_eq_compare, ← cmp_eq_compare, cmp_mul_pos_right hpos, Int.cast_strictMono.cmp_map_eq]

theorem toInt_intPart {d : Decimal} {n : ℤ} (hd : d.toRat = n) (hlo : Int64.minValue.toInt ≤ n)
    (hhi : n ≤ Int64.maxValue.toInt) : (lib.intPart d).toInt = n := by
  have hcut : (d.rescale 0).coeff = n := by rw [coeff_rescale, hd]; simp
  show (Int64.ofInt (d.rescale 0).coeff).toInt = n
  rw [hcut, toInt_ofInt_of_bounds hlo hhi]

/-- The executable decimal library keeps the laws of an exact one. -/
theorem lib_exact : lib.Exact toRat where
  new _ _ := rfl
  ofInt c := by simp [lib]
  ofString _ r h := ⟨r, h, rfl⟩
  text_new _ _ := rfl
  shift := toRat_shift
  round := toRat_round_zero
  cmp := cmp_eq
  intPart _ _ hd hlo hhi := toInt_intPart hd hlo hhi

end Decimal

end TradeDesk
