import TradeDesk.Binary64.Basic
import TradeDesk.Text.Quoted
/-!
# Durations

A duration is a signed count of nanoseconds in a word. Its text is a sign and a sequence of
decimal numbers, each with an optional fraction and a unit (`ns`, `us`, `µs`, `μs`, `ms`, `s`,
`m`, `h`), as in `1.5h` or `-2m30s`; a lone `0` is zero.

Reading follows three rules worth knowing. The integer part of a number may not exceed 2^63;
digits of a fraction beyond what 63 bits hold are read but ignored. A fraction counts
`f · (unit / 10^k)` nanoseconds, worked out in binary64 with each operation rounded, then
truncated. Magnitudes are summed in 64-bit unsigned words (so a sum can wrap), and a total above
2^63 is refused, as is one of 2^63 unless negative.

Refusals quote the text with every character outside printable ASCII written as the hex escapes
of its UTF-8 bytes.

A duration is written with hours, minutes and seconds (`1h2m3.5s`), or, below one second, in
`ms`, `µs` or `ns` with a fraction; zero is `0s`.
-/

namespace TradeDesk.Duration

/-- How a duration's text is quoted in refusals. -/
def quote (s : String) : String :=
  let esc := fun (c : Char) =>
    if c.toNat ≥ 0x80 ∨ c.toNat < 0x20 then
      (String.utf8EncodeChar c).flatMap fun b => ['\\', 'x', Text.hexDigit (b.toNat / 16), Text.hexDigit (b.toNat % 16)]
    else if c = '"' ∨ c = '\\' then ['\\', c]
    else [c]
  String.ofList ('"' :: s.toList.flatMap esc ++ ['"'])

/-- Nanoseconds in a unit. -/
def unitNanos (u : String) : Option Nat :=
  if u = "ns" then some 1
  else if u = "us" ∨ u = "µs" ∨ u = "μs" then some 1000
  else if u = "ms" then some 1000000
  else if u = "s" then some 1000000000
  else if u = "m" then some 60000000000
  else if u = "h" then some 3600000000000
  else none

/-- The value of a digit character. -/
def digit (c : Char) : Nat := c.toNat - 48

/-- Leading digits as a magnitude, and the rest; refused beyond 2^63. -/
def leadingInt : List Char → Nat → Option (Nat × List Char)
  | [], x => some (x, [])
  | c :: cs, x =>
    if c.isDigit then
      if x > Nat.pow 2 63 / 10 then none
      else
        let x := x * 10 + digit c
        if x > Nat.pow 2 63 then none else leadingInt cs x
    else some (x, c :: cs)

/-- Leading fraction digits: their value, `10^k` in binary64 for the `k` digits kept, and the rest.
Digits that no longer fit are skipped. -/
def leadingFraction : List Char → Nat → Binary64 → Bool → Nat × Binary64 × List Char
  | [], x, sc, _ => (x, sc, [])
  | c :: cs, x, sc, full =>
    if !c.isDigit then (x, sc, c :: cs)
    else if full ∨ x > (Nat.pow 2 63 - 1) / 10 then leadingFraction cs x sc true
    else
      let y := x * 10 + digit c
      if y > Nat.pow 2 63 then leadingFraction cs x sc true
      else leadingFraction cs y (sc.scale 10) false

/-- The binary64 quotient of two finite positive numbers. -/
def quotient (a b : Binary64) : Binary64 :=
  match a.ratio?, b.ratio? with
  | some (_, na, da), some (_, nb, db) => Binary64.nearest false (na * db) (da * nb)
  | _, _ => Binary64.nan

/-- The binary64 product of two finite positive numbers. -/
def product (a b : Binary64) : Binary64 :=
  match a.ratio?, b.ratio? with
  | some (_, na, da), some (_, nb, db) => Binary64.nearest false (na * nb) (da * db)
  | _, _ => Binary64.nan

/-- The nanoseconds of a fraction `f / sc` of a unit, truncated. -/
def fracNanos (f : Nat) (sc : Binary64) (unit : Nat) : Nat :=
  match (product (Binary64.ofInt f) (quotient (Binary64.ofInt unit) sc)).ratio? with
  | some (_, n, d) => n / d
  | none => 0

/-- Why a text is not a duration. -/
inductive Refusal where
  | invalid
  | missingUnit
  | unknownUnit (u : String)
  deriving Repr, DecidableEq, Inhabited

/-- Reads the numbers of a duration, adding their magnitudes to `d`. -/
def readParts : Nat → List Char → Nat → Except Refusal Nat
  | _, [], d => .ok d
  | 0, _ :: _, _ => .error .invalid
  | fuel + 1, c :: cs, d =>
    if !(c = '.' ∨ c.isDigit) then .error .invalid
    else
      match leadingInt (c :: cs) 0 with
      | none => .error .invalid
      | some (v, s) =>
        let pre := s.length ≠ (c :: cs).length
        let (f, sc, s, post) : Nat × Binary64 × List Char × Bool := match s with
          | '.' :: r => let (f, sc, r') := leadingFraction r 0 (Binary64.ofInt 1) false; (f, sc, r', r'.length ≠ r.length)
          | _ => (0, Binary64.ofInt 1, s, false)
        if !pre ∧ !post then .error .invalid
        else
          let u := s.takeWhile fun c => !(c = '.' ∨ c.isDigit)
          let rest := s.dropWhile fun c => !(c = '.' ∨ c.isDigit)
          if u.isEmpty then .error .missingUnit
          else match unitNanos (String.ofList u) with
            | none => .error (.unknownUnit (String.ofList u))
            | some unit =>
              if v > Nat.pow 2 63 / unit then .error .invalid
              else
                let v := v * unit + (if f > 0 then fracNanos f sc unit else 0)
                if v > Nat.pow 2 63 then .error .invalid
                else
                  let d := (d + v) % Nat.pow 2 64
                  if d > Nat.pow 2 63 then .error .invalid else readParts fuel rest d

/-- Reads a duration. -/
def read (text : String) : Except String Int64 :=
  let fail := fun (r : Refusal) => match r with
    | .invalid => "time: invalid duration " ++ quote text
    | .missingUnit => "time: missing unit in duration " ++ quote text
    | .unknownUnit u => "time: unknown unit " ++ quote u ++ " in duration " ++ quote text
  let (neg, s) := match text.toList with
    | '-' :: r => (true, r)
    | '+' :: r => (false, r)
    | r => (false, r)
  if s = ['0'] then .ok 0
  else if s.isEmpty then .error (fail .invalid)
  else match readParts (s.length + 1) s 0 with
    | .error r => .error (fail r)
    | .ok d =>
      if neg then .ok (-(Int64.ofNat d))
      else if d > Nat.pow 2 63 - 1 then .error (fail .invalid)
      else .ok (Int64.ofNat d)

/-- The digits of a fraction of `prec` digits of `v`, without trailing zeros, and what is left
of `v` above them. -/
def fraction (v prec : Nat) : String × Nat :=
  let digits := (List.range prec).map fun i => Text.hexDigit (v / Nat.pow 10 i % 10)
  let kept := (digits.dropWhile (· = '0')).reverse
  (if kept.isEmpty then "" else "." ++ String.ofList kept, v / Nat.pow 10 prec)

/-- The text of a duration. -/
def text (d : Int64) : String :=
  let u := d.toInt.natAbs
  let sign := if d < 0 then "-" else ""
  if u = 0 then "0s"
  else if u < 1000000000 then
    let (prec, unit) :=
      if u < 1000 then (0, "ns") else if u < 1000000 then (3, "µs") else (6, "ms")
    let (frac, whole) := fraction u prec
    sign ++ Nat.repr whole ++ frac ++ unit
  else
    let (frac, secs) := fraction u 9
    let mins := secs / 60
    let hours := mins / 60
    let tail := Nat.repr (secs % 60) ++ frac ++ "s"
    if mins = 0 then sign ++ tail
    else if hours = 0 then sign ++ Nat.repr (mins % 60) ++ "m" ++ tail
    else sign ++ Nat.repr hours ++ "h" ++ Nat.repr (mins % 60) ++ "m" ++ tail

end TradeDesk.Duration
