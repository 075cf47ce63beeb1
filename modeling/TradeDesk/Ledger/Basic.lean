import TradeDesk.Side
import TradeDesk.Saturating
/-!
# Fills, lots and holdings

The records a ledger is made of. Amounts are micros in 64-bit words.

* A `Fill` is an executed trade: a symbol, a side, a quantity, a price and a fee.
* An `Entry` of the ledger's log is a fill, a cash adjustment, or an inert entry that the log
  keeps without effect (an unknown kind, or a kind without its record).
* A `Lot` is an accounting unit of a position: a signed quantity (positive long, negative short)
  and the price it was opened at. A `Position` holds a symbol's lots in the order they opened.
* `Holdings` are the open positions, one per symbol, ordered by symbol; a position whose net
  quantity is zero is never held.
* `Marks` give a price per symbol; a symbol without a mark is marked at zero.
-/

namespace TradeDesk

/-- An executed trade. -/
structure Fill where
  symbol : String
  side : Side
  qty : Int64
  price : Int64
  fee : Int64
  deriving Repr, DecidableEq, Inhabited

/-- A signed cash adjustment with its reason. -/
structure CashEntry where
  amount : Int64
  reason : String
  deriving Repr, DecidableEq, Inhabited

/-- An entry of a ledger's log. -/
inductive Entry where
  | fill (f : Fill)
  | cash (c : CashEntry)
  /-- An entry of an unknown kind, or of a known kind without its record: kept in the log,
  changing nothing. -/
  | inert (kind : String)
  deriving Repr, DecidableEq, Inhabited

/-- The kind of an entry, as the log names it. -/
def Entry.kind : Entry → String
  | .fill _ => "fill"
  | .cash _ => "cash"
  | .inert k => k

/-- An accounting unit of a position: positive quantities are long, negative ones short. -/
structure Lot where
  qty : Int64
  entry : Int64
  deriving Repr, DecidableEq, Inhabited

namespace Lot

def isLong (l : Lot) : Bool := 0 < l.qty
def isShort (l : Lot) : Bool := l.qty < 0

/-- The size of a lot (the negation wraps for the least word, as word arithmetic does). -/
def size (l : Lot) : Int64 := if l.qty < 0 then -l.qty else l.qty

end Lot

/-- A symbol's open lots, oldest first. -/
structure Position where
  symbol : String
  lots : List Lot := []
  deriving Repr, DecidableEq, Inhabited

namespace Position

/-- The net quantity: the lots' quantities summed with saturation, oldest first. -/
def qtySigned (p : Position) : Int64 := p.lots.foldl (fun q l => satAdd q l.qty) 0

/-- A position is flat when it has no lots or its net quantity is zero. -/
def isFlat (p : Position) : Bool := p.lots.isEmpty || p.qtySigned == 0

end Position

/-- The open positions, at most one per symbol, ordered by symbol. -/
abbrev Holdings := List Position

namespace Holdings

/-- The position of a symbol, if one is held. -/
def find? (h : Holdings) (symbol : String) : Option Position := List.find? (·.symbol = symbol) h

/-- The holdings with the position put in its place by symbol, replacing any of its symbol. -/
def put (h : Holdings) (p : Position) : Holdings :=
  match h with
  | [] => [p]
  | q :: rest =>
    if p.symbol < q.symbol then p :: q :: rest
    else if p.symbol = q.symbol then p :: rest
    else q :: put rest p

/-- The holdings without a position for the symbol. -/
def erase (h : Holdings) (symbol : String) : Holdings := h.filter (·.symbol ≠ symbol)

/-- The net quantity held in a symbol; zero when none is held. -/
def qtyOf (h : Holdings) (symbol : String) : Int64 :=
  match h.find? symbol with
  | some p => p.qtySigned
  | none => 0

end Holdings

/-- Prices per symbol. -/
abbrev Marks := List (String × Int64)

namespace Marks

/-- The mark of a symbol, zero when it has none. -/
def markOf (m : Marks) (symbol : String) : Int64 := (m.lookup symbol).getD 0

/-- The marks with one mark set, replacing any earlier one of the symbol. -/
def set (m : Marks) (symbol : String) (price : Int64) : Marks :=
  if m.any (·.1 = symbol) then m.map fun (s, p) => if s = symbol then (s, price) else (s, p)
  else m ++ [(symbol, price)]

/-- The marks with others merged in, each replacing any earlier mark of its symbol. -/
def merge (m other : Marks) : Marks := other.foldl (fun m (s, p) => m.set s p) m

end Marks

end TradeDesk
