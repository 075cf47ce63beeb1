import TradeDesk.Json.Read
import TradeDesk.Text.Quoted
/-!
# Request targets

How the target of a request becomes the path the router matches. The query, from the first `?`
on, is no part of it. Percent escapes are decoded, and the router matches the decoded path when
escaping it again in the canonical way gives back the target's own text: upper-case hex digits,
and an escape only for a byte a path may not hold as it is. Otherwise the router matches the text
as written, escapes and all, so `%41` stays `%41` and `%2F` never splits a segment.

The path is cut into segments at each `/`. A segment whose bytes are the UTF-8 encoding of a
text is that text; one whose bytes are not stays bytes, and names nothing the desk holds, since
every name the desk holds is text.
-/

namespace TradeDesk.Api

/-- Whether a path holds a byte as it is: letters, digits, `-._~` and the reserved characters
other than `?`. -/
def pathKeeps (b : UInt8) : Bool :=
  let c := b.toNat
  (0x61 ≤ c && c ≤ 0x7A) || (0x41 ≤ c && c ≤ 0x5A) || (0x30 ≤ c && c ≤ 0x39) ||
    "-._~$&+,/:;=@".toList.any (·.toNat = c)

/-- The upper-case hex digit of a number below 16, as a byte. -/
def hexUpper (n : Nat) : UInt8 := UInt8.ofNat (if n < 10 then 0x30 + n else 0x37 + n)

/-- A path's bytes in the canonical escaped form. -/
def escapePath : List UInt8 → List UInt8
  | [] => []
  | b :: rest =>
    (if pathKeeps b then [b] else [0x25, hexUpper (b.toNat / 16), hexUpper (b.toNat % 16)]) ++
      escapePath rest

/-- The bytes with each `%XX` escape decoded; none when a `%` starts no escape. -/
def unescapePath : List UInt8 → Option (List UInt8)
  | [] => some []
  | b :: rest =>
    if b.toNat = 0x25 then
      match rest with
      | h :: l :: rest' => do
        let hi ← Json.hexValue? (Char.ofNat h.toNat)
        let lo ← Json.hexValue? (Char.ofNat l.toNat)
        let tail ← unescapePath rest'
        pure (UInt8.ofNat (hi * 16 + lo) :: tail)
      | _ => none
    else (unescapePath rest).map (b :: ·)

/-- The bytes of the path the router matches for a request target. -/
def routeBytes (target : String) : List UInt8 :=
  let raw := ((target.splitOn "?").headD "").toUTF8.toList
  match unescapePath raw with
  | some decoded => if escapePath decoded = raw then decoded else raw
  | none => raw

/-- Bytes cut at each `/`: one more part than there are slashes. -/
def splitSlash : List UInt8 → List (List UInt8)
  | [] => [[]]
  | b :: rest =>
    match splitSlash rest with
    | [] => [[b]]
    | part :: parts => if b = 0x2F then [] :: part :: parts else (b :: part) :: parts

/-- A segment of the path the router matches. -/
inductive Segment where
  /-- Bytes that encode a text. -/
  | text (s : String)
  /-- Bytes that do not. -/
  | bytes (raw : List UInt8)
  deriving Repr, DecidableEq, Inhabited

namespace Segment

/-- The segment of some bytes. -/
def ofBytes (bs : List UInt8) : Segment :=
  if Text.isText bs then .text (Text.decodeLossy bs) else .bytes bs

/-- The segment read as text, each stray byte as U+FFFD. -/
def shown : Segment → String
  | .text s => s
  | .bytes raw => Text.decodeLossy raw

/-- The segment between double quotes. -/
def quoted : Segment → String
  | .text s => Text.quote s
  | .bytes raw => Text.quoteBytes raw

end Segment

/-- The segments of the path the router matches for a request target. -/
def routeSegments (target : String) : List Segment :=
  (splitSlash (routeBytes target)).map Segment.ofBytes

end TradeDesk.Api
