import TradeDesk.Binary64.Basic
/-!
# Reading binary64 numbers

The number nearest to a text written as a floating-point literal:

* an optional sign and `inf` or `infinity` in any case, or `nan` in any case without a sign;
* an optional sign, then decimal digits with at most one point and an optional exponent
  (`e` or `E`, an optional sign, digits);
* or an optional sign, `0x` or `0X`, hex digits with at most one point, and a mandatory binary
  exponent (`p` or `P`, an optional sign, decimal digits).

There must be at least one digit before the exponent. An underscore may stand between two
digits, or between the `0x` and a digit. The whole text must be used. The decimal value is
rounded to the nearest number; beyond the largest finite number it is infinite. Exponent digits
stop counting once the exponent reaches 10000, where the value is infinite or zero anyway.
-/

namespace TradeDesk.Binary64

/-- The character in lower case, for ASCII letters. -/
def lowerAscii (c : Char) : Char := if 'A' ≤ c ∧ c ≤ 'Z' then Char.ofNat (c.toNat + 32) else c

/-- Whether a text equals a lowercase word, ignoring the case of ASCII letters. -/
def equalsIgnoringCase (cs : List Char) (word : String) : Bool := cs.map lowerAscii = word.toList

/-- The value of a digit in base 10 or 16. -/
def digitValue (hex : Bool) (c : Char) : Option Nat :=
  if c.isDigit then some (c.toNat - 48)
  else if hex ∧ 'a' ≤ lowerAscii c ∧ lowerAscii c ≤ 'f' then some ((lowerAscii c).toNat - 87)
  else none

/-- One step of the underscore check: the class of the last character seen (`'^'` at the start,
`'0'` for a digit or base prefix, `'_'` for an underscore, `'!'` for anything else), or `none`
once an underscore stands where it may not. -/
def underscoreStep (hex : Bool) (saw : Option Char) (c : Char) : Option Char :=
  match saw with
  | none => none
  | some saw =>
    if (digitValue hex c).isSome then some '0'
    else if c = '_' then (if saw = '0' then some '_' else none)
    else if saw = '_' then none
    else some '!'

/-- Whether the underscores of a literal (sign included) stand only between digits, or between
the base prefix and a digit. -/
def underscoresOk (cs : List Char) : Bool :=
  let cs := match cs with
    | '+' :: r | '-' :: r => r
    | r => r
  let (hex, start, cs) := match cs with
    | '0' :: b :: r =>
      if lowerAscii b = 'x' then (true, '0', r)
      else if lowerAscii b = 'b' ∨ lowerAscii b = 'o' then (false, '0', r)
      else (false, '^', cs)
    | _ => (false, '^', cs)
  match cs.foldl (underscoreStep hex) (some start) with
  | some last => last ≠ '_'
  | none => false

/-- The mantissa read so far: its value, the digits after the point, and whether any digit was
seen. -/
structure Mantissa where
  value : Nat := 0
  fracDigits : Nat := 0
  sawDot : Bool := false
  sawDigit : Bool := false
  underscores : Bool := false

/-- Reads the digits of a mantissa, returning it with the rest of the text and the count of
characters read. -/
def readMantissa (hex : Bool) : List Char → Mantissa → Nat → Mantissa × List Char × Nat
  | [], acc, n => (acc, [], n)
  | c :: rest, acc, n =>
    if c = '_' then readMantissa hex rest { acc with underscores := true } (n + 1)
    else if c = '.' then
      if acc.sawDot then (acc, c :: rest, n)
      else readMantissa hex rest { acc with sawDot := true } (n + 1)
    else match digitValue hex c with
      | some d =>
        readMantissa hex rest
          { acc with value := acc.value * (if hex then 16 else 10) + d, sawDigit := true,
                     fracDigits := if acc.sawDot then acc.fracDigits + 1 else acc.fracDigits } (n + 1)
      | none => (acc, c :: rest, n)

/-- Reads exponent digits, counting no further once the exponent reaches 10000; returns the
exponent, whether an underscore was seen, the rest and the count of characters read. -/
def readExpDigits : List Char → Nat → Bool → Nat → Nat × Bool × List Char × Nat
  | [], e, u, n => (e, u, [], n)
  | c :: rest, e, u, n =>
    if c = '_' then readExpDigits rest e true (n + 1)
    else if c.isDigit then
      readExpDigits rest (if e < 10000 then e * 10 + (c.toNat - 48) else e) u (n + 1)
    else (e, u, c :: rest, n)

/-- Reads a finite literal (decimal or hex), without the special words. -/
def readFinite? (s : List Char) : Option Binary64 := do
  let (neg, r, signLen) := match s with
    | '+' :: r => (false, r, 1)
    | '-' :: r => (true, r, 1)
    | r => (false, r, 0)
  let (hex, r, prefixLen) := match r with
    | '0' :: x :: r' => if lowerAscii x = 'x' ∧ r' ≠ [] then (true, r', 2) else (false, r, 0)
    | _ => (false, r, 0)
  let (mant, r, mantLen) := readMantissa hex r {} 0
  if !mant.sawDigit then none
  let expChar := if hex then 'p' else 'e'
  let (expo, expUnderscore, r, expLen) ← match r with
    | c :: r' =>
      if lowerAscii c = expChar then
        let (esign, r'', signLen) := match r' with
          | '+' :: x => ((1 : Int), x, 1)
          | '-' :: x => ((-1 : Int), x, 1)
          | x => ((1 : Int), x, 0)
        match r'' with
        | d :: _ =>
          if d.isDigit then
            let (e, u, rest, n) := readExpDigits r'' 0 false 0
            some (esign * e, u, rest, 1 + signLen + n)
          else none
        | [] => none
      else if hex then none else some (0, false, c :: r', 0)
    | [] => if hex then none else some (0, false, [], 0)
  if !r.isEmpty then none
  let used := signLen + prefixLen + mantLen + expLen
  if (mant.underscores ∨ expUnderscore) ∧ !underscoresOk (s.take used) then none
  if hex then
    let e2 : Int := expo - 4 * mant.fracDigits
    some (if e2 ≥ 0 then nearest neg (mant.value * Nat.pow 2 e2.toNat) 1
      else nearest neg mant.value (Nat.pow 2 (-e2).toNat))
  else
    let e10 : Int := expo - mant.fracDigits
    some (if e10 ≥ 0 then nearest neg (mant.value * Nat.pow 10 e10.toNat) 1
      else nearest neg mant.value (Nat.pow 10 (-e10).toNat))

/-- The number a floating-point literal stands for, if the text is one. -/
def read? (text : String) : Option Binary64 :=
  let s := text.toList
  let (neg, body) := match s with
    | '+' :: r => (false, r)
    | '-' :: r => (true, r)
    | r => (false, r)
  if equalsIgnoringCase body "inf" ∨ equalsIgnoringCase body "infinity" then some (infinity neg)
  else if equalsIgnoringCase s "nan" then some nan
  else readFinite? s

end TradeDesk.Binary64
