import TradeDesk.Ledger.Valuation
/-!
# The risk limiter

The risk gate: caps on gross exposure and on each symbol's exposure, over the latest holdings and
marks it was given, and a switch that blocks all broker activity. A cap that is zero or negative
checks nothing.

The gate is open when not blocked and the gross exposure is within its cap. Before an intent is
written, `check` asks whether a change of a symbol's quantity keeps both caps: the symbol needs a
mark; its new exposure must be within the per-symbol cap; and the gross exposure of the other
symbols must not exceed the gross cap less the symbol's new exposure.
-/

namespace TradeDesk

/-- Exposure caps over the latest book, and a block switch. -/
structure Limiter where
  maxGross : Int64
  maxPerSymbol : Int64
  holdings : Holdings := []
  marks : Marks := []
  /-- Why the gate is blocked; empty when it is not. -/
  blocked : String := ""
  deriving Repr, Inhabited

namespace Limiter

/-- A limiter with caps and an empty book. -/
def new (maxGross maxPerSymbol : Int64) : Limiter := { maxGross, maxPerSymbol }

/-- Replaces the book the limiter evaluates. -/
def update (l : Limiter) (holdings : Holdings) (marks : Marks) : Limiter := { l with holdings, marks }

/-- Blocks the gate; an empty reason is a manual block. -/
def block (l : Limiter) (reason : String) : Limiter :=
  { l with blocked := if reason = "" then "manual" else reason }

/-- Opens the switch. -/
def unblock (l : Limiter) : Limiter := { l with blocked := "" }

/-- Whether the gate lets broker activity through. -/
def allowed (l : Limiter) : Bool :=
  l.blocked = "" ∧ (l.maxGross ≤ 0 ∨ ((l.holdings.enforceCap l.marks l.maxGross) matches .ok _))

/-- Checks a change of `delta` in a symbol's quantity against both caps at its mark. -/
def check (l : Limiter) (symbol : String) (delta : Int64) : Except Fault Unit :=
  match l.marks.lookup symbol with
  | none => .error (.because .missingMark "risk: no mark for symbol")
  | some mark =>
    let newQty := l.holdings.qtyOf symbol + delta
    let exposure := clampWord ((newQty.toInt.natAbs : Int) * mark.toInt)
    if 0 < l.maxPerSymbol ∧ l.maxPerSymbol < exposure then
      .error (.because .symbolLimit "risk: per-symbol exposure limit exceeded")
    else if 0 < l.maxGross ∧
        l.maxGross - exposure < (Holdings.exposure (l.holdings.filter fun (p : Position) => p.symbol ≠ symbol) l.marks).gross then
      .error (.because .grossLimit "risk: gross exposure limit exceeded")
    else .ok ()

end Limiter

end TradeDesk
