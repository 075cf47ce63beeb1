/-!
# Saturating words

Amounts are 64-bit words. Sums and products of amounts are computed exactly and brought back to
a word by `clampWord`, which stops at the ends of the range instead of wrapping around.
`clampWord_toInt` says the result is the integer itself whenever it fits.

The lemmas below bring word arithmetic to integers once, for every proof about amounts and
quantities: a clamped integer is the integer pushed into the range of words, and a negation or a
minimum of words is the integer one as long as the result stays in range.
-/

namespace TradeDesk

/-- The word nearest to an integer: integers beyond the range of words go to its ends. -/
def clampWord (x : Int) : Int64 :=
  if x < Int64.minValue.toInt then Int64.minValue
  else if Int64.maxValue.toInt < x then Int64.maxValue
  else Int64.ofInt x

/-- The sum of two words, stopped at the ends of the range. -/
def satAdd (a b : Int64) : Int64 := clampWord (a.toInt + b.toInt)

/-- The difference of two words, stopped at the ends of the range. -/
def satSub (a b : Int64) : Int64 := clampWord (a.toInt - b.toInt)

/-- The product of two words as an exact integer. -/
def wideMul (a b : Int64) : Int := a.toInt * b.toInt

theorem clampWord_toInt {x : Int} (lo : Int64.minValue.toInt ≤ x) (hi : x ≤ Int64.maxValue.toInt) :
    (clampWord x).toInt = x := by
  unfold clampWord
  rw [if_neg (Int.not_lt.mpr lo), if_neg (Int.not_lt.mpr hi)]
  rw [Int64.toInt_minValue] at lo
  rw [Int64.toInt_maxValue] at hi
  exact Int64.toInt_ofInt_of_le lo (by omega)

/-! ### Words as integers -/

/-- A clamped integer is the integer pushed into the range of words. -/
theorem toInt_clampWord (x : Int) :
    (clampWord x).toInt = max Int64.minValue.toInt (min x Int64.maxValue.toInt) := by
  have hmin := Int64.toInt_minValue
  have hmax := Int64.toInt_maxValue
  unfold clampWord
  split
  · omega
  · split
    · omega
    · rw [Int64.toInt_ofInt_of_le (by omega) (by omega)]
      omega

theorem toInt_satAdd (a b : Int64) :
    (satAdd a b).toInt = max Int64.minValue.toInt (min (a.toInt + b.toInt) Int64.maxValue.toInt) :=
  toInt_clampWord _

/-- A sum of words that stays in range is the sum of the integers. -/
theorem toInt_add_of_le {a b : Int64} (lo : Int64.minValue.toInt ≤ a.toInt + b.toInt)
    (hi : a.toInt + b.toInt ≤ Int64.maxValue.toInt) : (a + b).toInt = a.toInt + b.toInt := by
  rw [Int64.toInt_minValue] at lo
  rw [Int64.toInt_maxValue] at hi
  rw [Int64.toInt_add]
  exact Int.bmod_eq_of_le (by omega) (by omega)

/-- A difference of words that stays in range is the difference of the integers. -/
theorem toInt_sub_of_le {a b : Int64} (lo : Int64.minValue.toInt ≤ a.toInt - b.toInt)
    (hi : a.toInt - b.toInt ≤ Int64.maxValue.toInt) : (a - b).toInt = a.toInt - b.toInt := by
  rw [Int64.toInt_minValue] at lo
  rw [Int64.toInt_maxValue] at hi
  rw [Int64.toInt_sub]
  exact Int.bmod_eq_of_le (by omega) (by omega)

/-- The negation of a word other than the least one is exact. -/
theorem toInt_neg_of_ne {a : Int64} (h : a ≠ Int64.minValue) : (-a).toInt = -a.toInt := by
  have hne : a.toInt ≠ Int64.minValue.toInt := fun he => h (Int64.toInt_inj.1 he)
  have hmin := Int64.toInt_minValue
  have hlo := Int64.le_toInt a
  have hhi := Int64.toInt_lt a
  rw [Int64.toInt_neg]
  exact Int.bmod_eq_of_le (by omega) (by omega)

theorem toInt_min (a b : Int64) : (min a b).toInt = min a.toInt b.toInt := by
  show (if a ≤ b then a else b).toInt = _
  have hle := @Int64.le_iff_toInt_le a b
  split
  · rename_i h
    have := hle.1 h
    omega
  · rename_i h
    have := mt hle.2 h
    omega

theorem pos_iff_toInt {a : Int64} : 0 < a ↔ 0 < a.toInt := by
  rw [Int64.lt_iff_toInt_lt, Int64.toInt_zero]

theorem neg_iff_toInt {a : Int64} : a < 0 ↔ a.toInt < 0 := by
  rw [Int64.lt_iff_toInt_lt, Int64.toInt_zero]

theorem eq_zero_iff_toInt {a : Int64} : a = 0 ↔ a.toInt = 0 := by
  rw [← Int64.toInt_inj, Int64.toInt_zero]

end TradeDesk
