import TradeDesk.Decimal.Library
import TradeDesk.Text.Integer
import TradeDesk.Text.Numeral
/-!
# Decimals

An exact decimal `coeff · 10^exp`, with an integer coefficient and an integer exponent, and the
executable decimal library `Decimal.lib` the desk runs with.

* `Decimal.read` reads an optional sign, digits with at most one point, and an optional
  exponent after the first `e` or `E` (a signed 32-bit integer). At least one digit must stand
  beside the point. The exponent of the value is the written exponent less the number of digits
  after the point, and must itself fit a signed 32-bit integer. Refusals say why, with the text
  they refuse.
* `Decimal.text` writes the value positionally with the trailing zeros of the fraction removed;
  zero is `0`.
* `Decimal.round` rounds to a number of places in three steps: it cuts the decimal toward zero to
  one place more, adds five of that place away from zero, and cuts the last place off.
-/

namespace TradeDesk

/-- The exact decimal `coeff · 10^exp`. -/
structure Decimal where
  coeff : Int
  exp : Int
  deriving Repr, DecidableEq, Inhabited

namespace Decimal

/-- The smallest and largest exponents a decimal may have. -/
def minExp : Int := -Int.pow 2 31
def maxExp : Int := Int.pow 2 31 - 1

/-- The position of the first `e` or `E`, if any. -/
def exponentMark? (cs : List Char) : Option Nat := cs.findIdx? fun c => c = 'e' ∨ c = 'E'

/-- The value of a string of decimal digits. -/
def digitsValue (ds : List Char) : Nat := ds.foldl (fun n c => 10 * n + (c.toNat - 48)) 0

/-- Reads a signed integer of any size: an optional sign and at least one digit. -/
def readCoeff? (cs : List Char) : Option Int :=
  let (neg, ds) := match cs with
    | '-' :: ds => (true, ds)
    | '+' :: ds => (false, ds)
    | ds => (false, ds)
  if ds ≠ [] ∧ ds.all Char.isDigit then
    some (if neg then -(digitsValue ds : Int) else digitsValue ds)
  else none

/-- The refusal of a text, with the reason after it. -/
def refusal (what : List Char) (why : String) : String :=
  "can't convert " ++ String.ofList what ++ " to decimal" ++ why

/-- Reads a decimal; a refusal is the text of its reason. -/
def read (s : String) : Except String Decimal :=
  let cs := s.toList
  let written : Except String (List Char × Int) :=
    match exponentMark? cs with
    | none => .ok (cs, 0)
    | some i =>
      match Text.readInt (cs.drop (i + 1)) 32 with
      | .ok e => .ok (cs.take i, e)
      | .error .range => .error (refusal cs ": fractional part too long")
      | .error .invalid => .error (refusal cs ": exponent is not numeric")
  match written with
  | .error e => .error e
  | .ok (mantissa, written) =>
    if mantissa.count '.' > 1 then .error (refusal mantissa ": too many .s")
    else
      let (digits, fracLen) := match mantissa.idxOf? '.' with
        | none => (mantissa, 0)
        | some p => (mantissa.take p ++ mantissa.drop (p + 1), mantissa.length - p - 1)
      match readCoeff? digits with
      | none => .error (refusal mantissa "")
      | some coeff =>
        let exp := written - fracLen
        if exp < minExp ∨ maxExp < exp then .error (refusal cs ": fractional part too long")
        else .ok ⟨coeff, exp⟩

/-- The text of a decimal: its integer part, and the digits of its fraction without trailing
zeros after a point when any remain; a minus sign when it is negative. -/
def text (d : Decimal) : String :=
  if d.exp ≥ 0 then Text.ofInt (d.coeff * Int.pow 10 d.exp.toNat)
  else
    let digits := Nat.toDigits 10 d.coeff.natAbs
    let places := (-d.exp).toNat
    let (intPart, frac) :=
      if digits.length > places then (digits.take (digits.length - places), digits.drop (digits.length - places))
      else (['0'], List.replicate (places - digits.length) '0' ++ digits)
    let frac := (frac.reverse.dropWhile (· = '0')).reverse
    let body := if frac.isEmpty then intPart else intPart ++ '.' :: frac
    String.ofList (if d.coeff < 0 then '-' :: body else body)

/-- The decimal multiplied by `10^k`. -/
def shift (d : Decimal) (k : Int) : Decimal := { d with exp := d.exp + k }

/-- The decimal at exponent `e`: scaled up exactly, or cut toward zero. -/
def rescale (d : Decimal) (e : Int) : Decimal :=
  if e ≤ d.exp then ⟨d.coeff * Int.pow 10 (d.exp - e).toNat, e⟩
  else ⟨d.coeff.tdiv (Int.pow 10 (e - d.exp).toNat), e⟩

/-- The decimal rounded to `places` places: cut toward zero to one place more, five of that place
added away from zero, and the last place cut off. A decimal with exactly `places` places is
already rounded. -/
def round (d : Decimal) (places : Int) : Decimal :=
  if d.exp = -places then d
  else
    let t := (d.rescale (-places - 1)).coeff
    let u := if t < 0 then t - 5 else t + 5
    -- the quotient by ten rounds down; a negative one with a remainder goes back up one
    let q := u / 10
    ⟨if q < 0 ∧ u % 10 ≠ 0 then q + 1 else q, -places⟩

/-- The order of two decimals, compared at the smaller of their exponents. -/
def cmp (a b : Decimal) : Ordering :=
  let e := min a.exp b.exp
  compare (a.rescale e).coeff (b.rescale e).coeff

/-- The executable decimal library: decimals made, read, written, shifted, rounded and compared
exactly, with the integer part cut toward zero. -/
def lib : DecimalLib Decimal where
  new c e := ⟨c.toInt, e⟩
  ofInt c := ⟨c.toInt, 0⟩
  ofString := read
  text := text
  shift := shift
  round := round
  cmp := cmp
  intPart d := Int64.ofInt (d.rescale 0).coeff

end Decimal

end TradeDesk
