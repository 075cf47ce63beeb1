import TradeDesk.Fault
import TradeDesk.Binary64.Read
import TradeDesk.Binary64.Text
import TradeDesk.Decimal.Library
/-!
# Prices

Prices are integer micros: a million micros to the unit. A price that arrives as a binary64
number is scaled and rounded half away from zero. One that arrives as decimal text is read,
shifted six places, rounded to a whole number and cut to a word by a decimal library `L`, after a
check against the decimals of the least and greatest words. A price that is not finite, not a
decimal, or whose micros do not fit a 64-bit word is refused with a `pricing` fault that shows the
price.
-/

namespace TradeDesk

/-- Micros in one unit. -/
def microsPerUnit : Nat := 1000000

/-- Why a price cannot become micros. -/
inductive PricingReason where
  | notFinite
  | outOfRange
  | notDecimal
  deriving Repr, DecidableEq, Inhabited

/-- The words of a reason. -/
def PricingReason.text : PricingReason → String
  | .notFinite => "not finite"
  | .outOfRange => "out of int64 range"
  | .notDecimal => "not a decimal"

/-- The refusal of a price, shown as `shown`. -/
def pricingFault (shown : String) (reason : PricingReason) : Fault :=
  .because .pricing ("execution: price " ++ shown ++ " not representable: " ++ reason.text)

/-- Numbers in refusals: positional for decimal exponents from -4 to 5, two exponent digits at
least, and infinities with their sign. -/
def Binary64.messageLayout : Binary64.Layout := ⟨-4, 6, 2, "+Inf", "-Inf", "NaN"⟩

/-- Whether an integer fits a 64-bit word. -/
def fitsWord (x : Int) : Bool := -Int.pow 2 63 ≤ x ∧ x < Int.pow 2 63

/-- The micros of a binary64 price: the price times a million, rounded to a binary64 number and
then to the nearest integer, a half away from zero. -/
def priceToMicros (p : Binary64) : Except Fault Int64 :=
  let shown := p.text Binary64.messageLayout
  if !p.isFinite then .error (pricingFault shown .notFinite)
  else match (p.scale microsPerUnit).roundHalfAway? with
    | some r => if fitsWord r then .ok (Int64.ofInt r) else .error (pricingFault shown .outOfRange)
    | none => .error (pricingFault shown .outOfRange)

/-- The binary64 price nearest to an amount of micros. -/
def microsToPrice (micros : Int64) : Binary64 := (Binary64.ofInt micros.toInt).divNat microsPerUnit

section Decimals

variable {D : Type} (L : DecimalLib D)

/-- The decimal price of an amount of micros: the micros at six places. -/
def microsToDecimal (micros : Int64) : D := L.new micros (-6)

/-- The micros of a decimal price: shifted six places and rounded to a whole number, refused when
that lies above the greatest word or below the least. -/
def decimalToMicros (d : D) : Except Fault Int64 :=
  let scaled := L.round (L.shift d 6) 0
  if L.cmp scaled (L.ofInt Int64.maxValue) = .gt ∨ L.cmp scaled (L.ofInt Int64.minValue) = .lt then
    .error (pricingFault (L.text d) .outOfRange)
  else .ok (L.intPart scaled)

/-- The micros of a price written as decimal text. -/
def parseMicros (s : String) : Except Fault Int64 :=
  match L.ofString s with
  | .ok d => decimalToMicros L d
  | .error _ => .error (pricingFault s .notDecimal)

end Decimals

end TradeDesk
