/-!
# Binary64 numbers

A double-precision number is kept as its 64-bit pattern, and read through `Binary64.view`: a
sign with a finite magnitude `m · 2^q`, an infinity, or not a number. `Binary64.nearest` is the
one rounding rule every computation here goes through: the number nearest to a nonnegative
rational `num / den`, a tie going to the even significand, and a magnitude beyond the largest
finite number becoming infinite.

Working on the pattern and on exact rationals keeps every result a function of its inputs that
a proof can unfold; hardware arithmetic rounds the same way.
-/

namespace TradeDesk

/-- A double-precision number, as its bit pattern. -/
structure Binary64 where
  bits : UInt64
  deriving Repr, DecidableEq, Inhabited

/-- What a bit pattern stands for. -/
inductive Binary64.View where
  /-- `(-1)^neg · m · 2^q`, with `m < 2^53`. -/
  | finite (neg : Bool) (m : Nat) (q : Int)
  | infinite (neg : Bool)
  | nan
  deriving Repr, DecidableEq, Inhabited

namespace Binary64

/-- The number of significand bits stored. -/
def fracBits : Nat := 52

/-- The exponent of the least significant bit of a subnormal number. -/
def minExp : Int := -1074

/-- The exponent of the least significant bit of the largest finite numbers. -/
def maxExp : Int := 971

/-- What the pattern stands for. -/
def view (x : Binary64) : View :=
  let b := x.bits.toNat
  let neg := b ≥ Nat.pow 2 63
  let e : Nat := b / Nat.pow 2 52 % Nat.pow 2 11
  let f : Nat := b % Nat.pow 2 52
  if e = 2047 then (if f = 0 then .infinite neg else .nan)
  else if e = 0 then .finite neg f minExp
  else .finite neg (f + Nat.pow 2 52) ((e : Int) - 1075)

/-- The pattern of a finite number `(-1)^neg · m · 2^q` whose significand is already rounded:
`m < 2^53`, and `m ≥ 2^52` unless `q` is the subnormal exponent. A magnitude above the range is
infinite. -/
def pack (neg : Bool) (m : Nat) (q : Int) : Binary64 :=
  let sign := if neg then Nat.pow 2 63 else 0
  if maxExp < q then ⟨UInt64.ofNat (sign + 2047 * Nat.pow 2 52)⟩
  else if m < Nat.pow 2 52 then ⟨UInt64.ofNat (sign + m)⟩
  else ⟨UInt64.ofNat (sign + (q + 1075).toNat * Nat.pow 2 52 + (m - Nat.pow 2 52))⟩

/-- The infinity of a sign. -/
def infinity (neg : Bool) : Binary64 := pack neg 0 (maxExp + 1)

/-- Not a number. -/
def nan : Binary64 := ⟨0x7FF8000000000001⟩

/-- Zero of a sign. -/
def zero (neg : Bool) : Binary64 := pack neg 0 minExp

/-- The greatest `k` with `2^k ≤ num / den`, for positive `num` and `den`. -/
def log2Floor (num den : Nat) : Int :=
  let k : Int := (num.log2 : Int) - den.log2
  -- `2^k` is within a factor of two of the quotient: step down when it is above it.
  if k ≥ 0 then (if den * Nat.pow 2 k.toNat ≤ num then k else k - 1)
  else (if den ≤ num * Nat.pow 2 (-k).toNat then k else k - 1)

/-- The quotient `num / den` scaled by `2^-q`, as its floor and the comparison of its fraction
with one half. -/
def scaledDiv (num den : Nat) (q : Int) : Nat × Ordering :=
  let (n, d) := if q ≥ 0 then (num, den * Nat.pow 2 q.toNat) else (num * Nat.pow 2 (-q).toNat, den)
  (n / d, compare (2 * (n % d)) d)

/-- The number nearest to `num / den` with the given sign: ties go to the even significand, and
magnitudes beyond the largest finite number become infinite. -/
def nearest (neg : Bool) (num den : Nat) : Binary64 :=
  if num = 0 ∨ den = 0 then zero neg
  else
    let q := max (log2Floor num den - 52) minExp
    let (m, half) := scaledDiv num den q
    let up := half = .gt ∨ (half = .eq ∧ m % 2 = 1)
    let m := if up then m + 1 else m
    if m = Nat.pow 2 53 then pack neg (Nat.pow 2 52) (q + 1) else pack neg m q

/-- The number nearest to an integer. -/
def ofInt (x : Int) : Binary64 := nearest (x < 0) x.natAbs 1

/-- Whether the number is finite. -/
def isFinite (x : Binary64) : Bool :=
  match x.view with
  | .finite .. => true
  | _ => false

/-- The magnitude of a finite number as the fraction `num / den`, with its sign. -/
def ratio? (x : Binary64) : Option (Bool × Nat × Nat) :=
  match x.view with
  | .finite neg m q => some (neg, if q ≥ 0 then m * Nat.pow 2 q.toNat else m, if q ≥ 0 then 1 else Nat.pow 2 (-q).toNat)
  | _ => none

/-- The number nearest to the product of a number and a natural number. -/
def scale (x : Binary64) (k : Nat) : Binary64 :=
  match x.view with
  | .finite neg m q =>
    if q ≥ 0 then nearest neg (m * Nat.pow 2 q.toNat * k) 1 else nearest neg (m * k) (Nat.pow 2 (-q).toNat)
  | .infinite neg => if k = 0 then nan else infinity neg
  | .nan => nan

/-- The number nearest to the quotient of a number by a positive natural number. -/
def divNat (x : Binary64) (k : Nat) : Binary64 :=
  match x.view with
  | .finite neg m q =>
    if q ≥ 0 then nearest neg (m * Nat.pow 2 q.toNat) k else nearest neg m (Nat.pow 2 (-q).toNat * k)
  | .infinite neg => infinity neg
  | .nan => nan

/-- The integer nearest to a finite number, a half going away from zero. -/
def roundHalfAway? (x : Binary64) : Option Int :=
  match x.view with
  | .finite neg m q =>
    let mag : Nat :=
      if q ≥ 0 then m * Nat.pow 2 q.toNat
      else
        let d := Nat.pow 2 (-q).toNat
        if 2 * (m % d) ≥ d then m / d + 1 else m / d
    some (if neg then -(mag : Int) else mag)
  | _ => none

/-- The pattern as sixteen lowercase hex digits. -/
def hexText (x : Binary64) : String :=
  String.ofList ((List.range 16).reverse.map fun i =>
    let d := x.bits.toNat / Nat.pow 16 i % 16
    if d < 10 then Char.ofNat (48 + d) else Char.ofNat (87 + d))

end Binary64

end TradeDesk
