/-!
# Bytes read as UTF-8

A byte string read as UTF-8 from the front, one piece at a time: a well-formed sequence is a
character, and any other byte stands alone as a stray byte, after which reading goes on with the
next byte. So a truncated or overlong sequence, an encoded surrogate or a byte that starts no
sequence costs exactly one stray byte for its first byte, and the bytes after it are read afresh.

`decodeLossy` writes each stray byte as U+FFFD, and a byte string is text when it has no stray
byte, which is when it is the encoding of a string.
-/

namespace TradeDesk.Text

/-- The character that stands for a byte that is not part of a well-formed sequence. -/
def replacement : Char := Char.ofNat 0xFFFD

/-- The number of bytes of the UTF-8 sequence a byte starts; zero for a byte that starts none. -/
def sequenceLength (b : UInt8) : Nat :=
  if b.toNat < 0x80 then 1
  else if b.toNat < 0xC2 then 0
  else if b.toNat < 0xE0 then 2
  else if b.toNat < 0xF0 then 3
  else if b.toNat < 0xF5 then 4
  else 0

/-- A piece of a byte string read as UTF-8. -/
inductive Piece where
  /-- A well-formed sequence. -/
  | char (c : Char)
  /-- A byte that is not part of one. -/
  | stray (b : UInt8)
  deriving Repr, DecidableEq, Inhabited

/-- Whether a piece is a character. -/
def Piece.isChar : Piece → Bool
  | .char _ => true
  | .stray _ => false

/-- The pieces of a byte string, from the front. -/
def pieces (bs : List UInt8) : List Piece :=
  match bs with
  | [] => []
  | b :: rest =>
    let n := sequenceLength b
    match (if n = 0 then none else String.fromUTF8? (ByteArray.mk ((b :: rest).take n).toArray)) with
    | some s => s.toList.map .char ++ pieces (rest.drop (n - 1))
    | none => .stray b :: pieces rest
termination_by bs.length
decreasing_by
  all_goals simp only [List.length_cons, List.length_drop]
  all_goals omega

/-- Bytes read as UTF-8, each stray byte read as U+FFFD. -/
def decodeLossy (bs : List UInt8) : String :=
  String.ofList ((pieces bs).map fun
    | .char c => c
    | .stray _ => replacement)

/-- Whether bytes are the UTF-8 encoding of a text: no piece of them is a stray byte. -/
def isText (bs : List UInt8) : Bool := (pieces bs).all Piece.isChar

end TradeDesk.Text
