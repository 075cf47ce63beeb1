import TradeDesk.Ledger.Basic
/-!
# First in, first out

How a fill changes cash, realized profit and the holdings. A buy first covers short lots, oldest
first, realizing `(entry − price) · covered` on each; whatever remains opens a long lot at the
fill's price. A sell reduces long lots the same way, realizing `(price − entry) · sold`, and
opens a short lot with the rest. A lot partly consumed stays in its place with what is left.
Quantities follow word arithmetic; profits and cash are computed exactly and saturate. The two
sides walk the lots alike with the signs swapped, so both are `Fifo.trade`, told which side the
fill is on.

`Standing` is what a log of entries determines: cash, realized profit and the holdings.
`Standing.apply` is the one step both the incremental ledger and a replay of its log take, so
the two always agree.
-/

namespace TradeDesk

namespace Fifo

/-- Closes the lots a fill of `qty` at `px` trades against, oldest first: long lots for a sell
(`sells`), short ones for a buy. Closing `n` of a lot realizes `(px − entry) · n` on a long lot
and `(entry − px) · n` on a short one; a lot partly closed keeps its place with what is left.
Answers the lots kept, the realized profit and the quantity left over. -/
def close (sells : Bool) (px : Int64) : List Lot → Int64 → Int64 → List Lot × Int64 × Int64
  | [], realized, qty => ([], realized, qty)
  | lot :: rest, realized, qty =>
    if qty = 0 ∨ !(if sells then lot.isLong else lot.isShort) then
      let (kept, r, q) := close sells px rest realized qty
      (lot :: kept, r, q)
    else
      let n := min lot.size qty
      let gain := if sells then (px.toInt - lot.entry.toInt) * n.toInt else (lot.entry.toInt - px.toInt) * n.toInt
      let realized := satAdd realized (clampWord gain)
      let left := lot.size - n
      let (kept, r, q) := close sells px rest realized (qty - n)
      ((if 0 < left then [{ qty := if sells then left else -left, entry := lot.entry }] else []) ++ kept, r, q)

/-- A fill of `qty` at `px`: it closes lots of the other side, and what remains opens a lot of
its own side at `px`. Answers the lots after it and the realized profit. -/
def trade (sells : Bool) (lots : List Lot) (realized qty px : Int64) : List Lot × Int64 :=
  let (kept, r, q) := close sells px lots realized qty
  (if 0 < q then kept ++ [{ qty := if sells then -q else q, entry := px }] else kept, r)

/-- A buy covers short lots and opens a long one with the rest. -/
def buy (lots : List Lot) (realized qty px : Int64) : List Lot × Int64 := trade false lots realized qty px

/-- A sell reduces long lots and opens a short one with the rest. -/
def sell (lots : List Lot) (realized qty px : Int64) : List Lot × Int64 := trade true lots realized qty px

end Fifo

namespace Fill

/-- The cash after a fill: the notional goes out for a buy and comes in for a sell (a fill on
another side moves none), and then the fee goes out. -/
def cashAfter (f : Fill) (cash : Int64) : Int64 :=
  let notional := clampWord (wideMul f.qty f.price)
  let cash := match f.side with
    | .buy => satSub cash notional
    | .sell => satAdd cash notional
    | .other _ _ => cash
  satSub cash f.fee

/-- The lots of the fill's position and the realized profit after a fill: a buy or a sell
trades, and a fill on another side changes neither. -/
def onLots (f : Fill) (lots : List Lot) (realized : Int64) : List Lot × Int64 :=
  match f.side with
  | .buy => Fifo.buy lots realized f.qty f.price
  | .sell => Fifo.sell lots realized f.qty f.price
  | .other _ _ => (lots, realized)

end Fill

/-- What a log of entries determines. -/
structure Standing where
  cash : Int64
  realized : Int64 := 0
  holdings : Holdings := []
  deriving Repr, DecidableEq, Inhabited

namespace Standing

/-- Applies a fill: cash moves as `Fill.cashAfter` says, the fill's position takes the lots
after it, and is dropped when flat. -/
def applyFill (s : Standing) (f : Fill) : Standing :=
  let pos := (s.holdings.find? f.symbol).getD { symbol := f.symbol }
  let traded := f.onLots pos.lots s.realized
  let pos := { pos with lots := traded.1 }
  { cash := f.cashAfter s.cash, realized := traded.2,
    holdings := if pos.isFlat then s.holdings.erase f.symbol else s.holdings.put pos }

/-- Applies one entry of a log. -/
def apply (s : Standing) : Entry → Standing
  | .fill f => s.applyFill f
  | .cash c => { s with cash := satAdd s.cash c.amount }
  | .inert _ => s

/-- The standing of a log replayed from an initial cash amount. -/
def replay (initialCash : Int64) (entries : List Entry) : Standing :=
  entries.foldl apply { cash := initialCash }

end Standing

end TradeDesk
