/-!
# Numerals

Integers written in decimal: a minus sign for negative numbers and no leading zeros.
-/

namespace TradeDesk.Text

/-- The decimal digits of a natural number, without leading zeros. -/
def ofNat (n : Nat) : String := String.ofList (Nat.toDigits 10 n)

/-- The decimal numeral of an integer, with a minus sign when it is negative. -/
def ofInt (x : Int) : String :=
  match x with
  | .ofNat n => ofNat n
  | .negSucc n => "-" ++ ofNat (n + 1)

/-- The decimal numeral of a 64-bit word. -/
def ofWord (x : Int64) : String := ofInt x.toInt

end TradeDesk.Text
