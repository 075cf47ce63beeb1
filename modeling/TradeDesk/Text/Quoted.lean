import TradeDesk.Text.Graphic
import TradeDesk.Text.Utf8
/-!
# Quoted text

A text written between double quotes so that it reads back unambiguously: the quote and the
backslash get a backslash, the usual control characters their one-letter escapes, other control
characters a two-digit hex escape, and other non-graphic characters a four- or eight-digit
escape. Graphic characters stand as they are. Quoted bytes are read as UTF-8 first, and a stray
byte is written as a two-digit hex escape.
-/

namespace TradeDesk.Text

/-- The lowercase hex digit of a number below 16. -/
def hexDigit (n : Nat) : Char :=
  if n < 10 then Char.ofNat (48 + n) else Char.ofNat (87 + n)

/-- The lowercase hex digits of `n`, exactly `width` of them (the low ones). -/
def hexDigits (width n : Nat) : List Char :=
  (List.range width).reverse.map fun i => hexDigit (n / Nat.pow 16 i % 16)

/-- How one character is written inside quotes. -/
def escapeChar (c : Char) : List Char :=
  if c = '"' ∨ c = '\\' then ['\\', c]
  else if isGraphic c ∨ c = ' ' then [c]
  else if c = '\x07' then ['\\', 'a']
  else if c = '\x08' then ['\\', 'b']
  else if c = '\x0c' then ['\\', 'f']
  else if c = '\n' then ['\\', 'n']
  else if c = '\r' then ['\\', 'r']
  else if c = '\t' then ['\\', 't']
  else if c = '\x0b' then ['\\', 'v']
  else if c.toNat < 0x20 ∨ c.toNat = 0x7F then '\\' :: 'x' :: hexDigits 2 c.toNat
  else if c.toNat < 0x10000 then '\\' :: 'u' :: hexDigits 4 c.toNat
  else '\\' :: 'U' :: hexDigits 8 c.toNat

/-- The text between double quotes, each character written by `escapeChar`. -/
def quote (s : String) : String :=
  String.ofList ('"' :: (s.toList.flatMap escapeChar ++ ['"']))

/-- How one piece of a byte string is written inside quotes. -/
def escapePiece : Piece → List Char
  | .char c => escapeChar c
  | .stray b => '\\' :: 'x' :: hexDigits 2 b.toNat

/-- Bytes between double quotes, each piece written by `escapePiece`. -/
def quoteBytes (bs : List UInt8) : String :=
  String.ofList ('"' :: ((pieces bs).flatMap escapePiece ++ ['"']))

end TradeDesk.Text
