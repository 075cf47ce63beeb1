import TradeDesk.Ledger.Fifo
import TradeDesk.Ledger.Canonical
import TradeDesk.Ledger.Valuation
import TradeDesk.Text.Blank
/-!
# The ledger

A ledger keeps a log of entries, the standing the log determines, and the last sequence number
of the fills that carried one. Every append is checked before anything changes, so a refused
append leaves the ledger as it was.

A fill is refused when its symbol is blank, its side is not a buy or a sell, its quantity is not
positive, its price is negative or its fee is negative, checked in that order. A fill with a
sequence number is refused first when the number is not above the last one. A cash adjustment
needs a reason that is not blank.

A batch of tagged fills is put in canonical order and checked in full, each fill's fields and
then its number against the one before, before any of it is applied.
-/

namespace TradeDesk

/-- Why the ledger refuses an append. -/
inductive LedgerError where
  | emptySymbol
  | invalidSide
  | nonPositiveQty (qty : Int64)
  | negativePrice (price : Int64)
  | negativeFee (fee : Int64)
  | outOfOrder (supplied last : UInt64)
  deriving Repr, DecidableEq, Inhabited

namespace LedgerError

/-- The text of a refusal. -/
def message : LedgerError → String
  | .emptySymbol => "portfolio: symbol or reason must not be empty"
  | .invalidSide => "portfolio: unknown fill side"
  | .nonPositiveQty q => "portfolio: fill quantity must be positive: " ++ Text.ofWord q
  | .negativePrice p => "portfolio: fill price must be non-negative: " ++ Text.ofWord p
  | .negativeFee f => "portfolio: fill fee must not be negative: " ++ Text.ofWord f
  | .outOfOrder s l =>
    "portfolio: sequence number out of order: supplied " ++ Text.ofNat s.toNat ++ ", last " ++
      Text.ofNat l.toNat

/-- The refusal as a fault. -/
def toFault (e : LedgerError) : Fault := .because .ledger e.message

end LedgerError

/-- The first reason a fill cannot be appended, if any. -/
def Fill.check (f : Fill) : Option LedgerError :=
  if Text.isBlank f.symbol then some .emptySymbol
  else if !f.side.valid then some .invalidSide
  else if f.qty ≤ 0 then some (.nonPositiveQty f.qty)
  else if f.price < 0 then some (.negativePrice f.price)
  else if f.fee < 0 then some (.negativeFee f.fee)
  else none

/-- A ledger: its log, the standing of the log, and the last sequence number applied. -/
structure Ledger where
  initialCash : Int64
  standing : Standing
  entries : List Entry := []
  lastSeq : Option UInt64 := none
  deriving Repr, Inhabited

namespace Ledger

/-- An empty ledger holding the initial cash. -/
def new (initialCash : Int64) : Ledger := { initialCash, standing := { cash := initialCash } }

/-- The ledger with an entry logged and applied. -/
def record (l : Ledger) (e : Entry) : Ledger :=
  { l with standing := l.standing.apply e, entries := l.entries ++ [e] }

/-- Whether a sequence number may follow the last one. -/
def seqAllowed (last : Option UInt64) (seq : UInt64) : Option LedgerError :=
  match last with
  | some n => if seq ≤ n then some (.outOfOrder seq n) else none
  | none => none

/-- Appends a fill without a sequence number. -/
def appendFill (l : Ledger) (f : Fill) : Except LedgerError Ledger :=
  match f.check with
  | some e => .error e
  | none => .ok (l.record (.fill f))

/-- Appends a fill whose sequence number must be above the last one. -/
def appendFillSeq (l : Ledger) (f : Fill) (seq : UInt64) : Except LedgerError Ledger :=
  match seqAllowed l.lastSeq seq with
  | some e => .error e
  | none =>
    match f.check with
    | some e => .error e
    | none => .ok { l.record (.fill f) with lastSeq := some seq }

/-- Appends a cash adjustment, which needs a reason. -/
def appendCash (l : Ledger) (amount : Int64) (reason : String) : Except LedgerError Ledger :=
  if Text.isBlank reason then .error .emptySymbol
  else .ok (l.record (.cash { amount, reason }))

/-- The first reason a batch in canonical order cannot be applied after `last`. -/
def checkBatch : Option UInt64 → List TaggedFill → Option LedgerError
  | _, [] => none
  | last, tf :: rest =>
    match tf.fill.check with
    | some e => some e
    | none =>
      match seqAllowed last tf.seq with
      | some e => some e
      | none => checkBatch (some tf.seq) rest

/-- Applies a batch of tagged fills in canonical order, all or nothing. -/
def applyCanonical (l : Ledger) (batch : List TaggedFill) : Except LedgerError Ledger :=
  let sorted := TaggedFill.sortCanonical batch
  match checkBatch l.lastSeq sorted with
  | some e => .error e
  | none => sorted.foldlM (fun l tf => l.appendFillSeq tf.fill tf.seq) l

/-- Whether replaying the log from the initial cash gives the ledger's standing. -/
def verify (l : Ledger) : Bool := Standing.replay l.initialCash l.entries == l.standing

/-- The net quantity held in a symbol. -/
def qtyOf (l : Ledger) (symbol : String) : Int64 := l.standing.holdings.qtyOf symbol

/-- Whether no position is open. -/
def isFlat (l : Ledger) : Bool := l.standing.holdings.isEmpty

end Ledger

end TradeDesk
