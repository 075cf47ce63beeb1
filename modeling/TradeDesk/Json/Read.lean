import TradeDesk.Json.Basic
/-!
# Reading JSON

A reader for the JSON grammar. Blanks between tokens are the space, tab, newline and carriage
return. Numbers follow the grammar (an optional minus, an integer part without leading zeros, an
optional fraction and an optional exponent) and keep their text. In strings a control character
must be escaped; a `\u` escape of a surrogate half reads as a pair only together with a following
escape of the other half, and otherwise stands for U+FFFD.

`parse?` reads a text that holds exactly one value. `parseFirst?` reads the first value of a
stream and leaves what follows it unread, so `null}` reads as null.

Arrays and objects nest at most `maxDepth` deep: a reader refuses a text that opens one more,
even an empty one.

The readers recurse on an explicit bound that is larger than the number of steps the text can
take, so they are total; `fuelFor` gives that bound.
-/

namespace TradeDesk.Json

/-- The blanks allowed between tokens. -/
def isBlank (c : Char) : Bool := c = ' ' ∨ c = '\t' ∨ c = '\n' ∨ c = '\r'

/-- The text after the leading blanks. -/
def skipBlank (cs : List Char) : List Char := cs.dropWhile isBlank

/-- The value of a hex digit. -/
def hexValue? (c : Char) : Option Nat :=
  if '0' ≤ c ∧ c ≤ '9' then some (c.toNat - 48)
  else if 'a' ≤ c ∧ c ≤ 'f' then some (c.toNat - 87)
  else if 'A' ≤ c ∧ c ≤ 'F' then some (c.toNat - 55)
  else none

/-- The value of four hex digits. -/
def hex4? (a b c d : Char) : Option Nat := do
  let a ← hexValue? a
  let b ← hexValue? b
  let c ← hexValue? c
  let d ← hexValue? d
  pure (((a * 16 + b) * 16 + c) * 16 + d)

/-- Whether a code unit is half of a surrogate pair. -/
def isSurrogate (u : Nat) : Bool := 0xD800 ≤ u ∧ u < 0xE000

/-- The replacement character, which stands for a code unit that is no character. -/
def replacement : Char := Char.ofNat 0xFFFD

/-- The character of a code point that is not a surrogate half. -/
def charOf (u : Nat) : Char := if isSurrogate u then replacement else Char.ofNat u

/-- The character a `\u` escape with code unit `u` stands for, and the text after it: half of a
surrogate pair takes the following escape of the other half with it, and alone stands for
U+FFFD. -/
def unitEscape (u : Nat) (rest : List Char) : Char × List Char :=
  if isSurrogate u then
    match rest with
    | '\\' :: 'u' :: e :: f :: g :: h :: rest' =>
      match hex4? e f g h with
      | some l =>
        if u < 0xDC00 ∧ 0xDC00 ≤ l ∧ l < 0xE000 then
          (Char.ofNat (0x10000 + (u - 0xD800) * 0x400 + (l - 0xDC00)), rest')
        else (replacement, rest)
      | none => (replacement, rest)
    | _ => (replacement, rest)
  else (Char.ofNat u, rest)

theorem length_unitEscape_le (u : Nat) (rest : List Char) :
    (unitEscape u rest).2.length ≤ rest.length := by
  unfold unitEscape
  split
  · split
    · split
      · split <;> simp; omega
      · simp
    · simp
  · simp

/-- Reads the rest of a string after its opening quote: its characters and the text after the
closing quote. -/
def readString (cs : List Char) (acc : List Char) : Option (String × List Char) :=
  match cs with
  | [] => none
  | '"' :: rest => some (String.ofList acc.reverse, rest)
  | '\\' :: '"' :: rest => readString rest ('"' :: acc)
  | '\\' :: '\\' :: rest => readString rest ('\\' :: acc)
  | '\\' :: '/' :: rest => readString rest ('/' :: acc)
  | '\\' :: 'b' :: rest => readString rest ('\x08' :: acc)
  | '\\' :: 'f' :: rest => readString rest ('\x0c' :: acc)
  | '\\' :: 'n' :: rest => readString rest ('\n' :: acc)
  | '\\' :: 'r' :: rest => readString rest ('\r' :: acc)
  | '\\' :: 't' :: rest => readString rest ('\t' :: acc)
  | '\\' :: 'u' :: a :: b :: c :: d :: rest =>
    match hex4? a b c d with
    | none => none
    | some u =>
      have := length_unitEscape_le u rest
      readString (unitEscape u rest).2 ((unitEscape u rest).1 :: acc)
  | '\\' :: _ => none
  | c :: rest => if c.toNat < 0x20 then none else readString rest (c :: acc)
termination_by cs.length
decreasing_by all_goals simp_all <;> omega

/-- The digits at the front of a text, and the rest. -/
def spanDigits (cs : List Char) : List Char × List Char := (cs.takeWhile Char.isDigit, cs.dropWhile Char.isDigit)

/-- The optional minus sign of a number, and the text after it. -/
def readSign : List Char → List Char × List Char
  | '-' :: r => (['-'], r)
  | r => ([], r)

/-- The integer part of a number: a lone zero, or digits that do not start with one. -/
def readIntPart : List Char → Option (List Char × List Char)
  | '0' :: r => some (['0'], r)
  | c :: r => if c.isDigit then some (spanDigits (c :: r)) else none
  | [] => none

/-- The fraction of a number when it has one: a point and at least one digit. -/
def readFraction : List Char → Option (List Char × List Char)
  | '.' :: r =>
    let (ds, r) := spanDigits r
    if ds.isEmpty then none else some ('.' :: ds, r)
  | r => some ([], r)

/-- The exponent of a number when it has one: `e` or `E`, an optional sign and at least one
digit. -/
def readExponent : List Char → Option (List Char × List Char)
  | e :: r =>
    if e = 'e' ∨ e = 'E' then
      let (sgn, r) := match r with
        | '+' :: r => (['+'], r)
        | '-' :: r => (['-'], r)
        | r => ([], r)
      let (ds, r) := spanDigits r
      if ds.isEmpty then none else some (e :: sgn ++ ds, r)
    else some ([], e :: r)
  | [] => some ([], [])

/-- Reads a number: its text and the rest. -/
def readNumber (cs : List Char) : Option (String × List Char) := do
  let (sign, r) := readSign cs
  let (intPart, r) ← readIntPart r
  let (frac, r) ← readFraction r
  let (expo, r) ← readExponent r
  pure (String.ofList (sign ++ intPart ++ frac ++ expo), r)

/-- The deepest nesting of arrays and objects a reader takes. -/
def maxDepth : Nat := 10000

mutual

/-- Reads one value after any blanks, inside `depth` open arrays and objects: the value and the
text after it. -/
def readValue : Nat → Nat → List Char → Option (Json × List Char)
  | 0, _, _ => none
  | n + 1, depth, cs =>
    match skipBlank cs with
    | 'n' :: 'u' :: 'l' :: 'l' :: r => some (.null, r)
    | 't' :: 'r' :: 'u' :: 'e' :: r => some (.bool true, r)
    | 'f' :: 'a' :: 'l' :: 's' :: 'e' :: r => some (.bool false, r)
    | '"' :: r => (readString r []).map fun (s, r) => (.str s, r)
    | '[' :: r =>
      if maxDepth ≤ depth then none
      else match skipBlank r with
        | ']' :: r => some (.arr [], r)
        | r => readItems n (depth + 1) r []
    | '{' :: r =>
      if maxDepth ≤ depth then none
      else match skipBlank r with
        | '}' :: r => some (.obj [], r)
        | r => readMembers n (depth + 1) r []
    | r => (readNumber r).map fun (s, r) => (.num s, r)

/-- Reads the items of an array from the next item on, after the items `acc` (in reverse);
`depth` counts the array. -/
def readItems : Nat → Nat → List Char → List Json → Option (Json × List Char)
  | 0, _, _, _ => none
  | n + 1, depth, cs, acc =>
    match readValue n depth cs with
    | none => none
    | some (v, r) =>
      match skipBlank r with
      | ',' :: r => readItems n depth r (v :: acc)
      | ']' :: r => some (.arr (v :: acc).reverse, r)
      | _ => none

/-- Reads the members of an object from the next member on, after the members `acc` (in
reverse); `depth` counts the object. -/
def readMembers : Nat → Nat → List Char → List (String × Json) → Option (Json × List Char)
  | 0, _, _, _ => none
  | n + 1, depth, cs, acc =>
    match skipBlank cs with
    | '"' :: r =>
      match readString r [] with
      | none => none
      | some (k, r) =>
        match skipBlank r with
        | ':' :: r =>
          match readValue n depth r with
          | none => none
          | some (v, r) =>
            match skipBlank r with
            | ',' :: r => readMembers n depth r ((k, v) :: acc)
            | '}' :: r => some (.obj ((k, v) :: acc).reverse, r)
            | _ => none
        | _ => none
    | _ => none

end

/-- A bound on the steps of the readers over a text: each step takes at least one character,
or is followed by one that does. -/
def fuelFor (cs : List Char) : Nat := 2 * cs.length + 2

/-- Reads a text that holds exactly one value, with only blanks around it. -/
def parse? (s : String) : Option Json :=
  let cs := s.toList
  match readValue (fuelFor cs) 0 cs with
  | some (v, r) => if (skipBlank r).isEmpty then some v else none
  | none => none

/-- Reads the first value of a stream. The value ends where its grammar ends, whatever follows:
the rest of the stream belongs to later reads. -/
def parseFirst? (s : String) : Option Json :=
  let cs := s.toList
  (readValue (fuelFor cs) 0 cs).map (·.1)

end TradeDesk.Json
