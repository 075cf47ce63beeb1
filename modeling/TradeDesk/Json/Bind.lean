import TradeDesk.Json.Basic
import TradeDesk.Text.Integer
/-!
# Binding JSON to records

How a JSON value fills a record whose fields have names. The members of an object are taken in
order: a member names a field when its name equals the field's name, or else equals it up to
case (the long s `ſ` and the Kelvin sign `K` count as `s` and `k`); members that name no field
are skipped. A null member leaves its field as it is, except an optional field, which it clears.
Any other member must have the field's type, or the whole value is refused. A later member for
the same field overrides an earlier one. A null document leaves the record as it was; a document
that is not an object is refused.

Numbers bind to words only when written as integers in range; a fraction or an exponent is
refused.

A list field is filled in place (`Slots`): an array binds its items into the slots from the
front, each item starting from what its slot holds, so a member that names the list a second time
amends the items the first one gave. Slots beyond the array keep their items, out of the list,
for a later and longer array; an empty array or null starts the list afresh.
-/

namespace TradeDesk.Json

/-- A named field of a record of type `α`. -/
structure Field (α : Type) where
  name : String
  /-- The record with the field set from a value other than null; none when the value has the
  wrong type. -/
  set : Json → α → Option α
  /-- The record after a null member for the field. -/
  clear : α → α := id

/-- The character that stands for a character's case class when field names are compared. -/
def foldChar (c : Char) : Char :=
  if 'a' ≤ c ∧ c ≤ 'z' then Char.ofNat (c.toNat - 32)
  else if c.toNat = 0x17F then 'S'
  else if c.toNat = 0x212A then 'K'
  else c

/-- Whether two names are equal up to case. -/
def sameName (a b : String) : Bool := a.toList.map foldChar == b.toList.map foldChar

/-- The field a member's name selects: the one of that exact name, else one equal up to case. -/
def selectField {α : Type} (fields : List (Field α)) (name : String) : Option (Field α) :=
  match fields.find? (·.name = name) with
  | some f => some f
  | none => fields.find? fun f => sameName f.name name

/-- Binds the members of an object to the record, in order. -/
def bindMembers {α : Type} (fields : List (Field α)) : List (String × Json) → α → Option α
  | [], r => some r
  | (k, v) :: rest, r =>
    match selectField fields k with
    | none => bindMembers fields rest r
    | some f =>
      match v with
      | .null => bindMembers fields rest (f.clear r)
      | v =>
        match f.set v r with
        | some r => bindMembers fields rest r
        | none => none

/-- Binds a document to a record that starts as `init`. -/
def bind {α : Type} (fields : List (Field α)) (init : α) : Json → Option α
  | .null => some init
  | .obj ms => bindMembers fields ms init
  | _ => none

/-- A text, from a string. -/
def asString? : Json → Option String
  | .str s => some s
  | _ => none

/-- A truth value, from a boolean. -/
def asBool? : Json → Option Bool
  | .bool b => some b
  | _ => none

/-- A signed 64-bit word, from a number written as an integer in range. -/
def asWord? : Json → Option Int64
  | .num s =>
    match Text.readInt s.toList 64 with
    | .ok n => some (Int64.ofInt n)
    | .error _ => none
  | _ => none

/-- An unsigned 64-bit word, from a number written as an unsigned integer in range. -/
def asUWord? : Json → Option UInt64
  | .num s =>
    match s.toList with
    | '-' :: _ => none
    | cs =>
      match Text.readInt cs 65 with
      | .ok n => if n < Int.pow 2 64 then some (UInt64.ofNat n.toNat) else none
      | .error _ => none
  | _ => none

/-- A list as a reader fills it in place: `items` holds every slot an array has reached, and the
list is the first `length` of them. -/
structure Slots (α : Type) where
  items : List α := []
  length : Nat := 0
  deriving Repr, Inhabited

/-- The list the slots hold. -/
def Slots.toList {α : Type} (s : Slots α) : List α := s.items.take s.length

/-- Binds the items of an array into slots from the front, each starting from what its slot
holds, or from `init` beyond the last slot; the slots after the array keep their items. -/
def bindSlotItems {α : Type} (fields : List (Field α)) (init : α) : List Json → List α → Option (List α)
  | [], olds => some olds
  | x :: xs, olds => do
    let a ← bind fields (olds.headD init) x
    let rest ← bindSlotItems fields init xs olds.tail
    pure (a :: rest)

/-- Binds an array to a list filled in place: the array's items, in slots that start from what
earlier arrays left; an empty array or null leaves no slot. -/
def bindSlots {α : Type} (fields : List (Field α)) (init : α) (s : Slots α) : Json → Option (Slots α)
  | .null => some {}
  | .arr [] => some {}
  | .arr xs => (bindSlotItems fields init xs s.items).map fun items => { items, length := xs.length }
  | _ => none

end TradeDesk.Json
