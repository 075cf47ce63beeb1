/-!
# Reading integers

Reads a decimal integer of a given width from a text: an optional sign and at least one digit,
nothing else. Digits are read from the left; as soon as the magnitude read so far exceeds what
an unsigned word of the width holds, the text is out of range, whatever follows. A magnitude
that fits the unsigned word but not the signed one is out of range too.
-/

namespace TradeDesk.Text

/-- Why a text is not an integer of the width. -/
inductive IntRefusal where
  | invalid
  | range
  deriving Repr, DecidableEq, Inhabited

/-- The magnitude of a string of digits, refused at the first character that is not a digit or
as soon as it exceeds `limit`. -/
def readMagnitude (limit : Nat) : List Char → Nat → Except IntRefusal Nat
  | [], n => .ok n
  | c :: rest, n =>
    if c.isDigit then
      let n := 10 * n + (c.toNat - 48)
      if n > limit then .error .range else readMagnitude limit rest n
    else .error .invalid

/-- Reads a signed decimal integer of `bits` bits. -/
def readInt (s : List Char) (bits : Nat) : Except IntRefusal Int :=
  let (neg, digits) := match s with
    | '-' :: r => (true, r)
    | '+' :: r => (false, r)
    | r => (false, r)
  if digits.isEmpty then .error .invalid
  else match readMagnitude (Nat.pow 2 bits - 1) digits 0 with
    | .error e => .error e
    | .ok n =>
      if !neg ∧ n ≥ Nat.pow 2 (bits - 1) then .error .range
      else if neg ∧ n > Nat.pow 2 (bits - 1) then .error .range
      else .ok (if neg then -(n : Int) else n)

end TradeDesk.Text
