/-!
# The decimal library

Prices written as decimal text go through a decimal library the desk does not own. `DecimalLib`
holds the operations the desk calls on it, over the library's own type of decimals: making a
decimal from a word and an exponent or from a word alone, reading one from text and writing one
as text, shifting the point, rounding to a number of places, comparing two decimals, and taking
the integer part as a word.

Every function that calls the library takes it as a parameter. What the desk's results need of
it is stated as laws beside the proofs that use them; an executable library that keeps them
(`Decimal.lib`) is what the desk runs with.
-/

namespace TradeDesk

/-- The operations of a decimal library over its decimals `D`. -/
structure DecimalLib (D : Type) where
  /-- The decimal `coeff · 10^exp`. -/
  new : Int64 → Int → D
  /-- The decimal of a word. -/
  ofInt : Int64 → D
  /-- Reads a decimal from text; a refusal is the text of its reason. -/
  ofString : String → Except String D
  /-- The text of a decimal. -/
  text : D → String
  /-- The decimal times `10^k`. -/
  shift : D → Int → D
  /-- The decimal rounded to a number of places after the point. -/
  round : D → Int → D
  /-- The order of two decimals. -/
  cmp : D → D → Ordering
  /-- The integer part of a decimal, as a word. -/
  intPart : D → Int64

end TradeDesk
