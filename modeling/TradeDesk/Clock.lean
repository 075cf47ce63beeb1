import TradeDesk.Saturating
import TradeDesk.Text.Numeral
/-!
# Time

Instants are counted in nanoseconds from 2024-01-01T00:00:00Z, the moment the desk's clock
starts; they may be negative. The distance between two instants is a duration in a 64-bit word,
stopped at the ends of its range. `rfc3339?` writes an instant as a UTC date and time with the
nanoseconds as a fraction without trailing zeros; an instant outside the years 0 to 9999 has no
such text, since RFC 3339 writes a year in exactly four digits.
-/

namespace TradeDesk

/-- Nanoseconds since 2024-01-01T00:00:00Z. -/
abbrev Instant := Int

namespace Instant

/-- The duration from `b` to `a`, saturated to a word. -/
def since (a b : Instant) : Int64 := clampWord (a - b)

/-- Seconds from 1970-01-01T00:00:00Z to the desk's epoch. -/
def epochUnix : Int := 1704067200

/-- The civil date of a day counted from 1970-01-01 in the proleptic Gregorian calendar: year,
month and day. Days are counted in eras of 400 years from 0000-03-01; `/` on integers rounds
down for a positive divisor, so the era of a day before that is negative. -/
def civil (days : Int) : Int × Nat × Nat :=
  let z := days + 719468
  let era := z / 146097
  let doe := z - era * 146097
  let yoe := (doe - doe / 1460 + doe / 36524 - doe / 146096) / 365
  let y := yoe + era * 400
  let doy := doe - (365 * yoe + yoe / 4 - yoe / 100)
  let mp := (5 * doy + 2) / 153
  let d := doy - (153 * mp + 2) / 5 + 1
  let m := if mp < 10 then mp + 3 else mp - 9
  ((if m ≤ 2 then y + 1 else y), m.toNat, d.toNat)

/-- A number with at least `w` digits. -/
def padded (w : Nat) (n : Nat) : String :=
  let s := Text.ofNat n
  String.ofList (List.replicate (w - s.length) '0') ++ s

/-- The instant as an RFC 3339 UTC timestamp, with a fraction of a second only when there is
one, and without trailing zeros; none outside the years 0 to 9999. -/
def rfc3339? (t : Instant) : Option String :=
  let ns := t + epochUnix * 1000000000
  let secs := ns.fdiv 1000000000
  let frac := (ns - secs * 1000000000).toNat
  let days := secs.fdiv 86400
  let daySecs := (secs - days * 86400).toNat
  let (y, m, d) := civil days
  let fracText :=
    if frac = 0 then ""
    else "." ++ String.ofList ((padded 9 frac).toList.reverse.dropWhile (· = '0')).reverse
  if y < 0 ∨ 9999 < y then none
  else some (padded 4 y.toNat ++ "-" ++ padded 2 m ++ "-" ++ padded 2 d ++ "T" ++
    padded 2 (daySecs / 3600) ++ ":" ++ padded 2 (daySecs / 60 % 60) ++ ":" ++ padded 2 (daySecs % 60) ++
    fracText ++ "Z")

end Instant

end TradeDesk
