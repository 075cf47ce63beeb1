import TradeDesk.Ledger.Journal
import TradeDesk.Json.Basic
/-!
# Ledger reports

The JSON forms of the ledger's records: fills, cash entries, log entries, lots, positions (an
object from symbol to position), exposure, and the snapshot of a ledger.
-/

namespace TradeDesk

/-- A fill as JSON. -/
def Fill.toJson (f : Fill) : Json :=
  .obj [("symbol", .str f.symbol), ("side", .str f.side.toText), ("qty", .word f.qty),
    ("price_micros", .word f.price), ("fee_micros", .word f.fee)]

/-- A cash entry as JSON. -/
def CashEntry.toJson (c : CashEntry) : Json :=
  .obj [("amount_micros", .word c.amount), ("reason", .str c.reason)]

/-- A log entry as JSON: its kind and its record. -/
def Entry.toJson : Entry → Json
  | .fill f => .obj [("kind", .str "fill"), ("fill", f.toJson)]
  | .cash c => .obj [("kind", .str "cash"), ("cash", c.toJson)]
  | .inert k => .obj [("kind", .str k)]

/-- A lot as JSON. -/
def Lot.toJson (l : Lot) : Json := .obj [("qty", .word l.qty), ("entry_price_micros", .word l.entry)]

/-- A position as JSON. -/
def Position.toJson (p : Position) : Json :=
  .obj [("symbol", .str p.symbol), ("lots", .arr (p.lots.map Lot.toJson))]

/-- Holdings as an object from symbol to position. -/
def Holdings.toJson (h : Holdings) : Json := .obj (h.map fun p => (p.symbol, p.toJson))

/-- Exposure as JSON. -/
def Exposure.toJson (e : Exposure) : Json :=
  .obj [("gross_exposure_micros", .word e.gross), ("net_exposure_micros", .word e.net)]

/-- The snapshot of a ledger: cash, realized profit, positions, the size of the log, and the last
sequence number when one was applied. -/
def Ledger.snapshot (l : Ledger) : Json :=
  .obj ([("initial_cash_micros", .word l.initialCash), ("cash_micros", .word l.standing.cash),
    ("realized_pnl_micros", .word l.standing.realized), ("positions", l.standing.holdings.toJson),
    ("entry_count", .nat l.entries.length)] ++
    match l.lastSeq with
    | some s => [("last_seq_no", .nat s.toNat)]
    | none => [])

end TradeDesk
