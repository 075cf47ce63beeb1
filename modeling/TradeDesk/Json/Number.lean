import TradeDesk.Json.Read
import TradeDesk.Binary64.Read
import TradeDesk.Binary64.Text
/-!
# Binary64 numbers in JSON

JSON writes a finite binary64 number with its shortest digits: positionally from `1e-6` up to
below `1e21`, in scientific notation outside that range with as few exponent digits as needed.
JSON has no text for infinities or not-a-number; they are written as `null`.

A reader that holds every number as a binary64 number sees a document with each number rounded
to the nearest one, and writes it back with that number's shortest digits; a number beyond the
binary64 range is one such a reader refuses, and with it the whole document, as it refuses one
whose arrays and objects nest deeper than `maxDepth`.
-/

namespace TradeDesk.Json

/-- Numbers in JSON: positional for decimal exponents from -6 to 20. -/
def numberLayout : Binary64.Layout := ⟨-6, 21, 1, "null", "null", "null"⟩

/-- The JSON number of a binary64 number. -/
def float (x : Binary64) : Json :=
  if x.isFinite then .num (x.text numberLayout) else .null

/-- A number literal as the nearest binary64 number writes it; none beyond the binary64 range. -/
def roundedLiteral? (literal : String) : Option Json :=
  match Binary64.read? literal with
  | some x => if x.isFinite then some (float x) else none
  | none => none

mutual

/-- The document as a reader that holds numbers as binary64 numbers writes it again: each number
rounded; none when a number is beyond the binary64 range. -/
def rounded? : Json → Option Json
  | .num s => roundedLiteral? s
  | .arr xs => (roundedItems? xs).map .arr
  | .obj ms => (roundedMembers? ms).map .obj
  | .verbatim _ v => rounded? v
  | j => some j

/-- The items of an array, each rounded. -/
def roundedItems? : List Json → Option (List Json)
  | [] => some []
  | x :: xs => do
    let x ← rounded? x
    let xs ← roundedItems? xs
    pure (x :: xs)

/-- The members of an object, each value rounded. -/
def roundedMembers? : List (String × Json) → Option (List (String × Json))
  | [] => some []
  | (k, v) :: ms => do
    let v ← rounded? v
    let ms ← roundedMembers? ms
    pure ((k, v) :: ms)

end

mutual

/-- How deep arrays and objects nest in a value: none in a scalar. -/
def nesting : Json → Nat
  | .arr xs => nestingItems xs + 1
  | .obj ms => nestingMembers ms + 1
  | .verbatim _ v => nesting v
  | _ => 0

/-- The deepest nesting among the items of an array. -/
def nestingItems : List Json → Nat
  | [] => 0
  | x :: xs => max (nesting x) (nestingItems xs)

/-- The deepest nesting among the values of an object's members. -/
def nestingMembers : List (String × Json) → Nat
  | [] => 0
  | (_, v) :: ms => max (nesting v) (nestingMembers ms)

end

/-- The document as a reader that holds numbers as binary64 numbers reads it and writes it again;
none when that reader refuses it. -/
def reread? (j : Json) : Option Json := if maxDepth < j.nesting then none else rounded? j

end TradeDesk.Json
