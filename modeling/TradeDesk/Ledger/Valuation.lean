import TradeDesk.Ledger.Basic
import TradeDesk.Fault
import TradeDesk.Text.Numeral
/-!
# Valuation at marks

Holdings valued at marks. Each figure is an exact sum over the positions, brought back to a word
by saturation at the end, so it does not depend on the order of the positions.

* Gross exposure sums `|q| · mark` and net exposure `q · mark`, with `q` a position's net
  quantity.
* Unrealized profit sums `(mark − entry) · q` over long lots and `(entry − mark) · |q|` over
  short ones.
* Equity is cash plus the net exposure, summed exactly before saturating.
* A gross exposure strictly above a cap is a breach.
-/

namespace TradeDesk

/-- Gross and net exposure. -/
structure Exposure where
  gross : Int64
  net : Int64
  deriving Repr, DecidableEq, Inhabited

namespace Holdings

/-- The exact gross exposure. -/
def grossExact (h : Holdings) (marks : Marks) : Int :=
  (h.map fun p => (p.qtySigned.toInt.natAbs : Int) * (marks.markOf p.symbol).toInt).foldl (· + ·) 0

/-- The exact net exposure. -/
def netExact (h : Holdings) (marks : Marks) : Int :=
  (h.map fun p => p.qtySigned.toInt * (marks.markOf p.symbol).toInt).foldl (· + ·) 0

/-- Gross and net exposure at the marks. -/
def exposure (h : Holdings) (marks : Marks) : Exposure :=
  { gross := clampWord (h.grossExact marks), net := clampWord (h.netExact marks) }

/-- The exact unrealized profit of one lot at a mark. -/
def lotProfit (mark : Int64) (l : Lot) : Int :=
  if 0 < l.qty then (mark.toInt - l.entry.toInt) * l.qty.toInt
  else if l.qty < 0 then (l.entry.toInt - mark.toInt) * (-l.qty.toInt)
  else 0

/-- The exact unrealized profit of all open lots at the marks. -/
def unrealizedExact (h : Holdings) (marks : Marks) : Int :=
  (h.map fun p => (p.lots.map (lotProfit (marks.markOf p.symbol))).foldl (· + ·) 0).foldl (· + ·) 0

/-- The unrealized profit of all open lots at the marks. -/
def unrealized (h : Holdings) (marks : Marks) : Int64 := clampWord (h.unrealizedExact marks)

/-- Cash plus the marked value of every position. -/
def equity (h : Holdings) (cash : Int64) (marks : Marks) : Int64 :=
  clampWord (cash.toInt + h.netExact marks)

/-- Refuses a gross exposure strictly above the cap. -/
def enforceCap (h : Holdings) (marks : Marks) (cap : Int64) : Except Fault Unit :=
  let gross := (h.exposure marks).gross
  if cap < gross then
    .error (.because .exposureBreach
      ("portfolio: gross exposure " ++ Text.ofWord gross ++ " exceeds cap " ++ Text.ofWord cap ++ " (micros)"))
  else .ok ()

end Holdings

end TradeDesk
