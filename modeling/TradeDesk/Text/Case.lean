import TradeDesk.Text.SimpleCase
/-!
# Letter case

Case mapping of texts, character by character, by the simple one-to-one mapping of the Unicode
tables: a character without a single-character form in the other case is left as it is, so a
mapping never changes the number of characters. ASCII letters are mapped before the tables are
consulted, and every other ASCII character stays.
-/

namespace TradeDesk.Text

/-- The capital form of a small letter, by code point. -/
def upperCode (n : Nat) : Nat :=
  if 0x61 ≤ n ∧ n ≤ 0x7A then n - 32
  else if n < 0x80 then n
  else CaseRun.apply upperRuns n

/-- The small form of a capital letter, by code point. -/
def lowerCode (n : Nat) : Nat :=
  if 0x41 ≤ n ∧ n ≤ 0x5A then n + 32
  else if n < 0x80 then n
  else CaseRun.apply lowerRuns n

/-- The capital form of a character. -/
def upperChar (c : Char) : Char := Char.ofNat (upperCode c.toNat)

/-- The small form of a character. -/
def lowerChar (c : Char) : Char := Char.ofNat (lowerCode c.toNat)

/-- A text in capitals. -/
def toUpper (s : String) : String := String.ofList (s.toList.map upperChar)

/-- A text in small letters. -/
def toLower (s : String) : String := String.ofList (s.toList.map lowerChar)

theorem upperCode_ascii (n : Nat) (h : 0x61 ≤ n ∧ n ≤ 0x7A) : upperCode n = n - 32 := by
  simp [upperCode, h]

end TradeDesk.Text
