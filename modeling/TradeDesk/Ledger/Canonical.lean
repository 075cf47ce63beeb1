import TradeDesk.Ledger.Basic
/-!
# Canonical order of fills

Fills tagged with the broker's sequence number are put in one order before a batch is applied:
by sequence number, then symbol (by code point, which is the order of their UTF-8 bytes), then
side (buying first, every text that is not a buy after it), then quantity. The sort is stable,
so fills equal in all four keep their order.
-/

namespace TradeDesk

/-- A fill with the sequence number that places it. -/
structure TaggedFill where
  seq : UInt64
  fill : Fill
  deriving Repr, DecidableEq, Inhabited

namespace TaggedFill

/-- The canonical comparison of two tagged fills. -/
def canonical (a b : TaggedFill) : Ordering :=
  (compare a.seq b.seq).then <|
  (compare a.fill.symbol b.fill.symbol).then <|
  (compare a.fill.side.rank b.fill.side.rank).then <|
  compare a.fill.qty b.fill.qty

/-- Tagged fills in canonical order, equal ones in their given order. -/
def sortCanonical (fs : List TaggedFill) : List TaggedFill :=
  fs.mergeSort fun a b => canonical a b != .gt

end TaggedFill

end TradeDesk
