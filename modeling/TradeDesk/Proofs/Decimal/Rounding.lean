import TradeDesk.Decimal.Basic
import Mathlib.Algebra.Order.Field.Basic
import Mathlib.Algebra.Order.Field.Power
import Mathlib.Data.Rat.Cast.Order
import Mathlib.Data.Rat.Floor
import Mathlib.Tactic.Linarith
import Mathlib.Tactic.Ring
/-!
# Rounding a decimal to an integer

The value of a decimal `coeff · 10^exp` is a rational number (`Decimal.toRat`), and a shift by `k`
multiplies it by `10^k` (`Decimal.toRat_shift`). `RoundsHalfAway x r` says that `r` is an integer
nearest to `x` and, when `x` lies halfway between two integers, the one farther from zero. At most
one integer does (`RoundsHalfAway.unique`), so the predicate names the rounding of `x`.

A decimal library rounds to whole numbers in three steps: it cuts the value toward zero to tenths,
adds five tenths away from zero, and cuts the tenths off. `roundByTenths` is those steps on a
rational number, and they round half away from zero (`roundByTenths_rounds`): the value is a
quotient `a / p`, every cut is a truncated quotient (`cutToZero_div`), and the tenths that remain
after the quotient of `a` by `p` reach five exactly when twice the remainder reaches `p`
(`tenths_div_add_five`).
-/

namespace TradeDesk

/-- `r` is an integer nearest to `x`, and when `x` is halfway between two integers, the one farther
from zero. -/
def RoundsHalfAway (x : ℚ) (r : ℤ) : Prop := |x - r| ≤ 1 / 2 ∧ (|x - r| = 1 / 2 → |x| < |(r : ℚ)|)

namespace RoundsHalfAway

theorem self (n : ℤ) : RoundsHalfAway n n := by
  refine ⟨by norm_num, fun h => ?_⟩
  norm_num at h

theorem neg {x : ℚ} {r : ℤ} (h : RoundsHalfAway x r) : RoundsHalfAway (-x) (-r) := by
  have he : |-x - ((-r : ℤ) : ℚ)| = |x - r| := by
    rw [Int.cast_neg, ← abs_neg]
    ring_nf
  refine ⟨he ▸ h.1, fun ht => ?_⟩
  rw [Int.cast_neg, abs_neg, abs_neg]
  exact h.2 (he ▸ ht)

/-- **At most one integer is the rounding.** Two integers within a half of `x` are a unit apart
with `x` halfway between them, and only the one farther from zero passes the tie rule. -/
theorem unique {x : ℚ} {r s : ℤ} (hr : RoundsHalfAway x r) (hs : RoundsHalfAway x s) : r = s := by
  by_contra hne
  have hgap : (1 : ℚ) ≤ |(r : ℚ) - s| := by exact_mod_cast Int.one_le_abs (sub_ne_zero.2 hne)
  have htri : |(r : ℚ) - s| ≤ |x - r| + |x - s| := by
    calc |(r : ℚ) - s| = |(x - s) - (x - r)| := by ring_nf
      _ ≤ |x - s| + |x - r| := abs_sub _ _
      _ = |x - r| + |x - s| := add_comm _ _
  -- both are exactly a half away, so both pass the tie rule
  have hxr : |x - r| = 1 / 2 := le_antisymm hr.1 (by linarith [hs.1])
  have hxs : |x - s| = 1 / 2 := le_antisymm hs.1 (by linarith [hr.1])
  -- so `x` is their midpoint, and twice `x` is an integer
  have h2x : 2 * x = ((r + s : ℤ) : ℚ) := by
    push_cast
    rcases (abs_eq (by norm_num : (0 : ℚ) ≤ 1 / 2)).1 hxr with h1 | h1 <;>
      rcases (abs_eq (by norm_num : (0 : ℚ) ≤ 1 / 2)).1 hxs with h2 | h2
    · exact absurd (by exact_mod_cast (by linarith : (r : ℚ) = s)) hne
    · linarith
    · linarith
    · exact absurd (by exact_mod_cast (by linarith : (r : ℚ) = s)) hne
  -- the tie rule for both, and their distance, as facts of integers
  have hunit : |s - r| = 1 := by
    have h : |2 * x - 2 * r| = 1 := by
      rw [← mul_sub, abs_mul, abs_two, hxr]
      norm_num
    rw [h2x] at h
    exact_mod_cast (by push_cast at h ⊢; ring_nf at h ⊢; exact h : |((s - r : ℤ) : ℚ)| = 1)
  have htie (n : ℤ) (hn : |x| < |(n : ℚ)|) : |r + s| < 2 * |n| := by
    have h : |2 * x| < 2 * |(n : ℚ)| := by
      rw [abs_mul, abs_two]
      linarith
    rw [h2x] at h
    exact_mod_cast h
  have hr' := htie r (hr.2 hxr)
  have hs' := htie s (hs.2 hxs)
  rw [Int.abs_eq_natAbs] at hunit hr' hs'
  rw [Int.abs_eq_natAbs] at hr' hs'
  omega

/-- The quotient of `a` by `p`, rounded up when twice the remainder reaches `p`, is the rounding
of `a / p`. -/
theorem div (a p : ℕ) (hp : 0 < p) :
    RoundsHalfAway ((a : ℚ) / p) ((if 2 * (a % p) ≥ p then a / p + 1 else a / p : ℕ) : ℤ) := by
  have hpq : (0 : ℚ) < p := by exact_mod_cast hp
  -- the value is the quotient plus a fraction `t` in `[0, 1)`
  set t : ℚ := ((a % p : ℕ) : ℚ) / p with ht
  have hsplit : (a : ℚ) / p = (a / p : ℕ) + t := by
    rw [ht, div_eq_iff hpq.ne', add_mul, div_mul_cancel₀ _ hpq.ne']
    exact_mod_cast (Nat.div_add_mod' a p).symm
  have ht0 : 0 ≤ t := div_nonneg (Nat.cast_nonneg _) hpq.le
  have ht1 : t < 1 := (div_lt_one hpq).2 (by exact_mod_cast Nat.mod_lt a hp)
  have hhalf : 2 * (a % p) ≥ p ↔ 1 / 2 ≤ t := by
    rw [ht, le_div_iff₀ hpq, ge_iff_le, ← @Nat.cast_le ℚ]
    push_cast
    constructor <;> intro h <;> linarith
  have hq : (0 : ℚ) ≤ (a / p : ℕ) := Nat.cast_nonneg _
  rw [hsplit]
  unfold RoundsHalfAway
  split
  · rename_i hup
    have h := hhalf.1 hup
    rw [Int.cast_natCast, Nat.cast_add, Nat.cast_one]
    have habs : |(a / p : ℕ) + t - ((a / p : ℕ) + 1)| = 1 - t := by
      rw [show ((a / p : ℕ) : ℚ) + t - ((a / p : ℕ) + 1) = -(1 - t) by ring, abs_neg, abs_of_pos (by linarith)]
    rw [habs]
    refine ⟨by linarith, fun _ => ?_⟩
    rw [abs_of_nonneg (by linarith), abs_of_nonneg (by linarith)]
    linarith
  · rename_i hdown
    have h := mt hhalf.2 hdown
    rw [Int.cast_natCast, add_sub_cancel_left, abs_of_nonneg ht0]
    exact ⟨by linarith, fun heq => absurd heq.ge h⟩

end RoundsHalfAway

namespace Decimal

/-- The value of a decimal. -/
def toRat (d : Decimal) : ℚ := d.coeff * 10 ^ d.exp

theorem toRat_shift (d : Decimal) (k : Int) : (d.shift k).toRat = d.toRat * 10 ^ k := by
  rw [toRat, toRat, shift, zpow_add₀ (by norm_num), mul_assoc]

end Decimal

/-- `x` cut toward zero to an integer. -/
def cutToZero (x : ℚ) : ℤ := if x < 0 then ⌈x⌉ else ⌊x⌋

/-- `x` rounded by tenths: cut toward zero to tenths, five tenths added away from zero, and the
tenths cut off. -/
def roundByTenths (x : ℚ) : ℤ :=
  let t := cutToZero (10 * x)
  (if t < 0 then t - 5 else t + 5).tdiv 10

@[simp] theorem cutToZero_intCast (n : ℤ) : cutToZero n = n := by
  unfold cutToZero
  split <;> simp

/-- A quotient cut toward zero is the truncated quotient. -/
theorem cutToZero_div (a : ℤ) {p : ℕ} (hp : 0 < p) : cutToZero ((a : ℚ) / p) = a.tdiv p := by
  have hpq : (0 : ℚ) < p := by exact_mod_cast hp
  unfold cutToZero
  by_cases ha : a < 0
  · rw [if_pos (div_neg_of_neg_of_pos (by exact_mod_cast ha) hpq), Rat.ceil_intCast_div_natCast]
    have h := Int.neg_tdiv (-a) p
    rw [neg_neg] at h
    rw [h, Int.tdiv_eq_ediv_of_nonneg (by omega)]
  · have ha' : 0 ≤ a := not_lt.1 ha
    rw [if_neg (not_lt.2 (div_nonneg (by exact_mod_cast ha') hpq.le)), Rat.floor_intCast_div_natCast,
      Int.tdiv_eq_ediv_of_nonneg ha']

theorem roundByTenths_div (a : ℤ) {p : ℕ} (hp : 0 < p) :
    roundByTenths ((a : ℚ) / p) =
      let t := (10 * a).tdiv p
      (if t < 0 then t - 5 else t + 5).tdiv 10 := by
  have h : 10 * ((a : ℚ) / p) = ((10 * a : ℤ) : ℚ) / p := by push_cast; ring
  simp only [roundByTenths, h, cutToZero_div _ hp]

/-- Tenths of `n / p` rounded by five: the quotient, one more when twice the remainder reaches `p`. -/
theorem tenths_div_add_five (n p : ℕ) (hp : 0 < p) :
    (10 * n / p + 5) / 10 = if 2 * (n % p) ≥ p then n / p + 1 else n / p := by
  have hsplit : 10 * n / p = 10 * (n / p) + 10 * (n % p) / p := by
    conv_lhs => rw [← Nat.div_add_mod n p, Nat.mul_add, Nat.mul_left_comm, Nat.mul_add_div hp]
  have hs : 10 * (n % p) / p < 10 := (Nat.div_lt_iff_lt_mul hp).2 (by have := Nat.mod_lt n hp; omega)
  have hhalf : 5 ≤ 10 * (n % p) / p ↔ p ≤ 2 * (n % p) := by
    rw [Nat.le_div_iff_mul_le hp]; omega
  rw [hsplit]
  generalize 10 * (n % p) / p = s at hs hhalf
  generalize n % p = r at hhalf ⊢
  generalize n / p = q
  split <;> omega

/-- **Rounding by tenths rounds half away from zero.** For every rational `x`, cutting `x` toward
zero to tenths, adding five tenths away from zero and cutting the tenths off gives the integer
nearest to `x`, a half going away from zero. -/
theorem roundByTenths_rounds (x : ℚ) : RoundsHalfAway x (roundByTenths x) := by
  obtain ⟨a, p, hp, rfl⟩ : ∃ (a : ℤ) (p : ℕ), 0 < p ∧ x = a / p :=
    ⟨x.num, x.den, x.den_pos, (Rat.num_div_den x).symm⟩
  rw [roundByTenths_div a hp]
  have hround (n : ℕ) : RoundsHalfAway ((n : ℚ) / p) (((10 * n / p + 5) / 10 : ℕ) : ℤ) :=
    tenths_div_add_five n p hp ▸ RoundsHalfAway.div n p hp
  obtain ⟨n, rfl | rfl⟩ := Int.eq_nat_or_neg a
  · have ht : (10 * (n : ℤ)).tdiv p = ((10 * n / p : ℕ) : ℤ) := by
      rw [Int.tdiv_eq_ediv_of_nonneg (by omega)]; push_cast; rfl
    have hup (N : ℕ) : (if (N : ℤ) < 0 then (N : ℤ) - 5 else (N : ℤ) + 5).tdiv 10 = (((N + 5) / 10 : ℕ) : ℤ) := by
      rw [if_neg (by omega), Int.tdiv_eq_ediv_of_nonneg (by omega)]; push_cast; rfl
    simp only [ht, hup, Int.cast_natCast]
    exact hround n
  · have ht : (10 * -(n : ℤ)).tdiv p = -((10 * n / p : ℕ) : ℤ) := by
      rw [mul_neg, Int.neg_tdiv, Int.tdiv_eq_ediv_of_nonneg (by omega)]; push_cast; rfl
    have hdown (N : ℕ) :
        (if -(N : ℤ) < 0 then -(N : ℤ) - 5 else -(N : ℤ) + 5).tdiv 10 = -(((N + 5) / 10 : ℕ) : ℤ) := by
      rcases Nat.eq_zero_or_pos N with rfl | hN
      · decide
      · rw [if_pos (by omega), show -(N : ℤ) - 5 = -((N + 5 : ℕ) : ℤ) by push_cast; ring, Int.neg_tdiv,
          Int.tdiv_eq_ediv_of_nonneg (by omega)]
        push_cast; rfl
    simp only [ht, hdown, Int.cast_neg, Int.cast_natCast, neg_div]
    exact (hround n).neg

theorem roundByTenths_intCast (n : ℤ) : roundByTenths n = n :=
  RoundsHalfAway.unique (roundByTenths_rounds n) (RoundsHalfAway.self n)

end TradeDesk
