import TradeDesk.Binary64.Basic
/-!
# Shortest decimal digits

The decimal with the fewest significant digits that reads back as a given finite number. A
number `m · 2^q` stands for every real in its rounding interval, the reals nearer to it than to
its neighbours; the ends belong to it when `m` is even, because a tie reads as the even
significand. For each count of digits from one up, the two decimals of that many digits on
either side of the number are tested against the interval in exact integer arithmetic; the first
count with a hit wins, and of two hits the nearer, a tie going to the even digit string.

If any decimal of a grid lies in the interval, so does one of the number's two neighbours on
that grid, since the interval is convex and holds the number; so no shorter decimal exists.
-/

namespace TradeDesk.Binary64

/-- Compares `c · 10^k` with `x · 2^p` exactly. -/
def cmpDecBin (c : Nat) (k : Int) (x : Nat) (p : Int) : Ordering :=
  compare (c * Nat.pow 10 k.toNat * Nat.pow 2 (-p).toNat) (x * Nat.pow 2 p.toNat * Nat.pow 10 (-k).toNat)

/-- The greatest `t` with `10^t ≤ m · 2^q`, for positive `m`. -/
def log10Floor (m : Nat) (q : Int) : Int :=
  let t0 : Int := ((m.log2 : Int) + q) * 30103 / 100000
  if cmpDecBin 1 (t0 + 1) m q ≠ .gt then t0 + 1
  else if cmpDecBin 1 t0 m q ≠ .gt then t0
  else t0 - 1

/-- The floor of `m · 2^q / 10^k`. -/
def floorDiv10 (m : Nat) (q k : Int) : Nat :=
  (m * Nat.pow 2 q.toNat * Nat.pow 10 (-k).toNat) / (Nat.pow 2 (-q).toNat * Nat.pow 10 k.toNat)

/-- Whether `c · 10^k` reads back as the number `m · 2^q`: it lies in the rounding interval,
whose ends count when `m` is even. -/
def readsBack (m : Nat) (q : Int) (c : Nat) (k : Int) : Bool :=
  -- The interval in units of `2^(q-2)`: the gap below is halved at the bottom of a binade.
  let lo := if m = Nat.pow 2 52 ∧ q > minExp then 4 * m - 1 else 4 * m - 2
  let hi := 4 * m + 2
  let a := cmpDecBin c k lo (q - 2)
  let b := cmpDecBin c k hi (q - 2)
  if m % 2 = 0 then a ≠ .lt ∧ b ≠ .gt else a = .gt ∧ b = .lt

/-- The best decimal of `n` significant digits that reads back as `m · 2^q`, if there is one:
of the two neighbours of the number on the grid, the one that reads back, or the nearer of
two, a tie going to the even one. -/
def tryDigits (m : Nat) (q : Int) (t : Int) (n : Nat) : Option (Nat × Int) :=
  let k := t - n + 1
  let c := floorDiv10 m q k
  let lower := readsBack m q c k
  let upper := readsBack m q (c + 1) k
  if lower ∧ upper then
    match cmpDecBin (2 * c + 1) k (2 * m) q with
    | .lt => some (c + 1, k)
    | .gt => some (c, k)
    | .eq => some (if c % 2 = 0 then c else c + 1, k)
  else if lower then some (c, k)
  else if upper then some (c + 1, k)
  else none

/-- The decimal `c · 10^k` with the trailing zeros of `c` moved into `k`. -/
def stripZeros (c : Nat) (k : Int) : Nat × Int :=
  if h : c ≠ 0 ∧ c % 10 = 0 then stripZeros (c / 10) (k + 1) else (c, k)
termination_by c
decreasing_by exact Nat.div_lt_self (Nat.pos_of_ne_zero h.1) (by decide)

/-- The shortest decimal `c · 10^k` that reads back as `m · 2^q`, with no trailing zeros in
`c`. Zero is `0 · 10^0`. Seventeen digits always suffice. -/
def shortest (m : Nat) (q : Int) : Nat × Int :=
  if m = 0 then (0, 0)
  else
    let t := log10Floor m q
    let found := (List.range 17).findSome? fun i => tryDigits m q t (i + 1)
    let (c, k) := found.getD (floorDiv10 m q (t - 16), t - 16)
    stripZeros c k

end TradeDesk.Binary64
