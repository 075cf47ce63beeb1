import TradeDesk.Binary64.Shortest
import TradeDesk.Text.Numeral
/-!
# Writing binary64 numbers

A number is written with its shortest digits (`Binary64.shortest`), laid out by a `Layout`: the
range of decimal exponents written positionally, the least number of exponent digits in
scientific notation, and the texts of the infinities and of not-a-number. The decimal exponent of
a number is that of its leading digit, so `1234.5` has exponent 3.
-/

namespace TradeDesk.Binary64

/-- How numbers are laid out in a text. -/
structure Layout where
  /-- Exponents `e` with `lowExp ≤ e < highExp` are written positionally, others in scientific
  notation. -/
  lowExp : Int
  highExp : Int
  /-- The least number of digits of an exponent; an exponent always has its sign. -/
  expDigits : Nat
  posInf : String
  negInf : String
  nanText : String

/-- The positional text of the digits `ds` with `dp` of them before the point. -/
def positional (ds : List Char) (dp : Int) : List Char :=
  if dp ≤ 0 then '0' :: '.' :: (List.replicate (-dp).toNat '0' ++ ds)
  else if ds.length ≤ dp.toNat then ds ++ List.replicate (dp.toNat - ds.length) '0'
  else ds.take dp.toNat ++ '.' :: ds.drop dp.toNat

/-- The scientific text of the digits `ds` with decimal exponent `e`. -/
def scientific (l : Layout) (ds : List Char) (e : Int) : List Char :=
  let mant := match ds with
    | d :: rest@(_ :: _) => d :: '.' :: rest
    | ds => ds
  let digits := Nat.toDigits 10 e.natAbs
  let digits := List.replicate (l.expDigits - digits.length) '0' ++ digits
  mant ++ 'e' :: (if e < 0 then '-' else '+') :: digits

/-- The text of a number under a layout. -/
def text (l : Layout) (x : Binary64) : String :=
  match x.view with
  | .nan => l.nanText
  | .infinite neg => if neg then l.negInf else l.posInf
  | .finite neg m q =>
    let (c, k) := shortest m q
    let ds := Nat.toDigits 10 c
    let dp : Int := ds.length + k
    let e := dp - 1
    let body := if c = 0 then ['0']
      else if l.lowExp ≤ e ∧ e < l.highExp then positional ds dp
      else scientific l ds e
    String.ofList (if neg then '-' :: body else body)

end TradeDesk.Binary64
