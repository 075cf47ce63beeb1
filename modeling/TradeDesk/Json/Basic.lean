import TradeDesk.Text.Numeral
/-!
# JSON documents

A JSON value as the desk reads and writes it. A number keeps the text it was written with, so
that a reader can decide what it may become (a 64-bit word, an unsigned word) and a writer can
say exactly how it is written. An object keeps its members in order, and may hold a name twice:
readers that bind members to fields decide which one counts. A document taken in from elsewhere
can be embedded whole, keeping its own text.
-/

namespace TradeDesk

/-- A JSON value. -/
inductive Json where
  | null
  | bool (b : Bool)
  /-- A number, as written. -/
  | num (literal : String)
  | str (s : String)
  | arr (items : List Json)
  /-- An object's members in order. -/
  | obj (members : List (String × Json))
  /-- A document embedded as the text it was written in: `value` is what `text` reads as, and a
  writer writes the text itself, compacted. -/
  | verbatim (text : String) (value : Json)
  deriving Repr, Inhabited

namespace Json

/-- The number of an integer. -/
def int (x : Int) : Json := .num (Text.ofInt x)

/-- The number of a 64-bit word. -/
def word (x : Int64) : Json := .num (Text.ofWord x)

/-- The number of a natural number. -/
def nat (n : Nat) : Json := .num (Text.ofNat n)

/-- A text, or null when there is none. -/
def strOrNull : Option String → Json
  | some s => .str s
  | none => .null

/-- The value of the first member with the name, or null when there is none. -/
def get (j : Json) (name : String) : Json :=
  match j with
  | .obj ms => ((ms.find? fun m => m.1 = name).map (·.2)).getD .null
  | _ => .null

/-- Whether the object has a member with the name. -/
def has (j : Json) (name : String) : Bool :=
  match j with
  | .obj ms => ms.any fun m => m.1 = name
  | _ => false

/-- The text of a string value, or the empty text. -/
def text (j : Json) : String :=
  match j with
  | .str s => s
  | _ => ""

/-- The truth of a boolean value; any other value counts as false. -/
def truth (j : Json) : Bool :=
  match j with
  | .bool b => b
  | _ => false

/-- The items of an array, or none. -/
def items (j : Json) : List Json :=
  match j with
  | .arr xs => xs
  | _ => []

/-- The members of an object, or none. -/
def members (j : Json) : List (String × Json) :=
  match j with
  | .obj ms => ms
  | _ => []

/-- Whether the value is null. -/
def isNull (j : Json) : Bool :=
  match j with
  | .null => true
  | _ => false

/-- Reads a decimal integer literal: an optional minus sign and digits, nothing else. -/
def intOfLiteral? (s : String) : Option Int :=
  match s.toList with
  | '-' :: ds => if ds ≠ [] ∧ ds.all Char.isDigit then some (-(natOfDigits ds)) else none
  | ds => if ds ≠ [] ∧ ds.all Char.isDigit then some (natOfDigits ds) else none
where
  natOfDigits (ds : List Char) : Nat := ds.foldl (fun n c => 10 * n + (c.toNat - 48)) 0

/-- The integer a number stands for, if it is written as an integer. -/
def int? (j : Json) : Option Int :=
  match j with
  | .num s => intOfLiteral? s
  | _ => none

/-- The integer a number stands for, or zero. -/
def intD (j : Json) : Int := j.int?.getD 0

/-- The 64-bit word a number stands for, or zero. -/
def wordD (j : Json) : Int64 := Int64.ofInt j.intD

end Json

end TradeDesk
