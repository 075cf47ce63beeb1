import TradeDesk.Json.Basic
import TradeDesk.Text.Quoted
/-!
# Writing JSON

The compact text of a JSON value: no blanks between tokens, members in their order, numbers as
written. In a string, the quote and the backslash get a backslash; backspace, form feed, newline,
carriage return and tab their one-letter escapes; other control characters, the angle brackets,
the ampersand and the two line separators U+2028 and U+2029 a `\u` escape with four lowercase
hex digits. All other characters stand as they are.

An embedded document is written as its own text, compacted: the blanks between its tokens are
dropped, the angle brackets, the ampersand and the two line separators become `\u` escapes,
and everything else, escapes and number spellings included, stays as written.
-/

namespace TradeDesk.Json

/-- How one character of a string is written. -/
def escapeChar (c : Char) : List Char :=
  if c = '"' then ['\\', '"']
  else if c = '\\' then ['\\', '\\']
  else if c = '\x08' then ['\\', 'b']
  else if c = '\x0c' then ['\\', 'f']
  else if c = '\n' then ['\\', 'n']
  else if c = '\r' then ['\\', 'r']
  else if c = '\t' then ['\\', 't']
  else if c.toNat < 0x20 ∨ c = '<' ∨ c = '>' ∨ c = '&' ∨ c.toNat = 0x2028 ∨ c.toNat = 0x2029 then
    '\\' :: 'u' :: Text.hexDigits 4 c.toNat
  else [c]

/-- A string between quotes, each character written by `escapeChar`. -/
def quote (s : String) : String :=
  String.ofList ('"' :: (s.toList.flatMap escapeChar ++ ['"']))

/-- A character that a compact text writes as a `\u` escape wherever it stands. -/
def isUnsafe (c : Char) : Bool :=
  c = '<' ∨ c = '>' ∨ c = '&' ∨ c.toNat = 0x2028 ∨ c.toNat = 0x2029

/-- How a compact text writes one character of a document's text. -/
def compactChar (c : Char) : List Char :=
  if isUnsafe c then '\\' :: 'u' :: Text.hexDigits 4 c.toNat else [c]

/-- The compact form of a document's text, from the given state: whether it is inside a string,
and whether the character before was an escaping backslash there. -/
def compactChars : List Char → Bool → Bool → List Char
  | [], _, _ => []
  | c :: rest, inString, escaped =>
    if inString then
      compactChar c ++ compactChars rest (escaped || c ≠ '"') (!escaped && c = '\\')
    else if c = ' ' ∨ c = '\t' ∨ c = '\n' ∨ c = '\r' then compactChars rest false false
    else compactChar c ++ compactChars rest (c = '"') false

/-- The compact form of a document's text. -/
def compactText (s : String) : String := String.ofList (compactChars s.toList false false)

mutual

/-- The compact text of a value. -/
def render : Json → String
  | .null => "null"
  | .bool true => "true"
  | .bool false => "false"
  | .num s => s
  | .str s => quote s
  | .arr xs => "[" ++ renderItems xs ++ "]"
  | .obj ms => "\x7b" ++ renderMembers ms ++ "\x7d"
  | .verbatim t _ => compactText t

/-- The items of an array, separated by commas. -/
def renderItems : List Json → String
  | [] => ""
  | [x] => render x
  | x :: xs => render x ++ "," ++ renderItems xs

/-- The members of an object, separated by commas. -/
def renderMembers : List (String × Json) → String
  | [] => ""
  | [(k, v)] => quote k ++ ":" ++ render v
  | (k, v) :: ms => quote k ++ ":" ++ render v ++ "," ++ renderMembers ms

end

end TradeDesk.Json
