import TradeDesk.Price
import TradeDesk.Proofs.Decimal.Exact
import TradeDesk.Proofs.Decimal.Text
/-!
# Decimal prices in micros

`decimalToMicros` shifts a decimal six places, rounds it to a whole number, and takes the integer
part when the rounded decimal lies between the least and the greatest word. For every library that
keeps the laws of an exact one (`DecimalLib.Exact`), each step is the step on values: the micros of a
decimal are `roundByTenths` of its value times a million when that fits a word, and the decimal is
refused as out of range otherwise (`decimalToMicros_eq`). Rounding by tenths rounds half away from
zero, and at most one integer does, so the micros are that rounding
(`decimalToMicros_rounds_half_away`).

A decimal worth a whole number of micros that fits a word gives exactly that word
(`decimalToMicros_of_val`). The decimal of an amount of micros is one; its text is the positional
text of the amount at six places, which reads back as a decimal of the same value, so both go back
to the amount (`micros_decimal_round_trip`).
-/

namespace TradeDesk

section Library

variable {D : Type} {L : DecimalLib D} {val : D → ℚ}

/-- The micros of a decimal: its value times a million, rounded by tenths, when that fits a word. -/
theorem decimalToMicros_eq (hL : L.Exact val) (d : D) :
    decimalToMicros L d =
      if Int64.minValue.toInt ≤ roundByTenths (val d * 1000000) ∧
          roundByTenths (val d * 1000000) ≤ Int64.maxValue.toInt then
        .ok (Int64.ofInt (roundByTenths (val d * 1000000)))
      else .error (pricingFault (L.text d) .outOfRange) := by
  have hscaled : val (L.round (L.shift d 6) 0) = roundByTenths (val d * 1000000) := by
    rw [hL.round, hL.shift]
    norm_num
  unfold decimalToMicros
  dsimp only
  rw [hL.cmp, hL.cmp, hL.ofInt, hL.ofInt, hscaled]
  generalize roundByTenths (val d * 1000000) = r at hscaled ⊢
  have hout : (compare (r : ℚ) (Int64.maxValue.toInt : ℚ) = .gt ∨ compare (r : ℚ) (Int64.minValue.toInt : ℚ) = .lt) ↔
      ¬(Int64.minValue.toInt ≤ r ∧ r ≤ Int64.maxValue.toInt) := by
    rw [compare_gt_iff_gt, compare_lt_iff_lt, Int.cast_lt, Int.cast_lt]
    omega
  by_cases hr : Int64.minValue.toInt ≤ r ∧ r ≤ Int64.maxValue.toInt
  · rw [if_neg (mt hout.1 (not_not.2 hr)), if_pos hr]
    refine congrArg Except.ok (Int64.toInt_inj.1 ?_)
    rw [hL.intPart _ r hscaled hr.1 hr.2, toInt_ofInt_of_bounds hr.1 hr.2]
  · rw [if_pos (hout.2 hr), if_neg hr]

/-- **Decimal prices round half away from zero.** For every library that keeps the laws of an exact
one and every decimal, exactly one integer is the rounding of its value times a million, a half
going away from zero; the micros of the decimal are that integer when it lies in the range of
words, and otherwise the decimal is refused as out of range. -/
theorem decimalToMicros_rounds_half_away (hL : L.Exact val) (d : D) :
    ∃ r : ℤ, RoundsHalfAway (val d * 1000000) r ∧ (∀ r', RoundsHalfAway (val d * 1000000) r' → r' = r) ∧
      decimalToMicros L d =
        if Int64.minValue.toInt ≤ r ∧ r ≤ Int64.maxValue.toInt then .ok (Int64.ofInt r)
        else .error (pricingFault (L.text d) .outOfRange) :=
  ⟨_, roundByTenths_rounds _, fun _ h => RoundsHalfAway.unique h (roundByTenths_rounds _), decimalToMicros_eq hL d⟩

/-- Minus two and a half micros round to minus three, away from zero. -/
theorem decimalToMicros_rounds_half_away_at_a_tie :
    Decimal.lib.Exact Decimal.toRat ∧
      ∃ r : ℤ, RoundsHalfAway ((⟨-25, -7⟩ : Decimal).toRat * 1000000) r ∧
        (∀ r', RoundsHalfAway ((⟨-25, -7⟩ : Decimal).toRat * 1000000) r' → r' = r) ∧
        decimalToMicros Decimal.lib ⟨-25, -7⟩ =
          if Int64.minValue.toInt ≤ r ∧ r ≤ Int64.maxValue.toInt then .ok (Int64.ofInt r)
          else .error (pricingFault (Decimal.lib.text ⟨-25, -7⟩) .outOfRange) :=
  ⟨Decimal.lib_exact, decimalToMicros_rounds_half_away Decimal.lib_exact ⟨-25, -7⟩⟩

/-- A decimal worth a whole number of micros gives that word. -/
theorem decimalToMicros_of_val (hL : L.Exact val) {d : D} {m : Int64} (h : val d * 1000000 = m.toInt) :
    decimalToMicros L d = .ok m := by
  have hr : roundByTenths (val d * 1000000) = m.toInt := by rw [h, roundByTenths_intCast]
  rw [decimalToMicros_eq hL, hr, if_pos ⟨Int64.minValue_le_toInt m, Int64.toInt_le m⟩, Int64.ofInt_toInt]

/-- A word of micros, written at six places, is worth that many millionths. -/
theorem toRat_micros (m : Int64) : (⟨m.toInt, -6⟩ : Decimal).toRat * 1000000 = m.toInt := by
  rw [Decimal.toRat_mk, mul_assoc, show (10 : ℚ) ^ (-6 : ℤ) * 1000000 = 1 by norm_num, mul_one]

theorem val_microsToDecimal (hL : L.Exact val) (m : Int64) : val (microsToDecimal L m) * 1000000 = m.toInt := by
  rw [microsToDecimal, hL.new, ← Decimal.toRat_mk, toRat_micros]

/-- **Micros survive a trip through decimals.** For every library that keeps the laws of an exact
one and every word `m`, the decimal of `m` micros gives back `m`, and so does its text. -/
theorem micros_decimal_round_trip (hL : L.Exact val) (m : Int64) :
    parseMicros L (L.text (microsToDecimal L m)) = .ok m ∧ decimalToMicros L (microsToDecimal L m) = .ok m := by
  obtain ⟨r, hread, hr⟩ := Decimal.read_text ⟨m.toInt, -6⟩ (show Decimal.minExp ≤ -6 by decide)
  obtain ⟨d, hd, hdval⟩ := hL.ofString _ r hread
  refine ⟨?_, decimalToMicros_of_val hL (val_microsToDecimal hL m)⟩
  rw [microsToDecimal, hL.text_new]
  unfold parseMicros
  rw [hd]
  exact decimalToMicros_of_val hL (by rw [hdval, hr, toRat_micros])

/-- The least word survives the trip through the executable library. -/
theorem micros_decimal_round_trip_at_the_least_word :
    Decimal.lib.Exact Decimal.toRat ∧
      parseMicros Decimal.lib (Decimal.lib.text (microsToDecimal Decimal.lib Int64.minValue)) = .ok Int64.minValue ∧
      decimalToMicros Decimal.lib (microsToDecimal Decimal.lib Int64.minValue) = .ok Int64.minValue :=
  ⟨Decimal.lib_exact, micros_decimal_round_trip Decimal.lib_exact Int64.minValue⟩

end Library

end TradeDesk
