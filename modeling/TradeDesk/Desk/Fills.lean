import TradeDesk.Desk.Orders
import TradeDesk.Ledger.Canonical
/-!
# Fills

Broker fills reach the desk in batches. Each is first recorded in the inbox under its message
id, which drops the ones already seen; the new ones are applied to the ledger as one batch in
canonical order, all or nothing, and then fed, in the same order, to the orders they belong to as
fill events (a final fill completes its order). An event an order refuses halts that order only:
the ledger already holds the fill.

A batch the ledger refuses is removed from the inbox again, so that a corrected redelivery is not
taken for a duplicate and a restart never replays it, and the desk disarms: its accounting can no
longer be trusted to match the broker.
-/

namespace TradeDesk

namespace BrokerFill

/-- The ledger fill of a report, tagged with its sequence number. -/
def tagged (f : BrokerFill) : TaggedFill :=
  { seq := f.seq, fill := { symbol := f.symbol, side := f.side, qty := f.qty, price := f.price, fee := f.fee } }

/-- Whether report `a` goes strictly before report `b` in the ledger's canonical order: by
sequence number, then symbol, then the rank of the side, then quantity. -/
def precedes (a b : BrokerFill) : Bool :=
  if a.seq ≠ b.seq then a.seq < b.seq
  else if a.symbol ≠ b.symbol then a.symbol < b.symbol
  else if a.side.rank ≠ b.side.rank then a.side.rank < b.side.rank
  else a.qty < b.qty

/-- Reports in the ledger's canonical order, equal ones in their given order: a stable sort by
`precedes`. -/
def sortCanonical (fs : List BrokerFill) : List BrokerFill :=
  fs.mergeSort fun a b => !precedes b a

/-- The order event of a report. -/
def event (f : BrokerFill) : Event := { kind := if f.final then .fill else .partialFill, delta := f.qty }

end BrokerFill

/-- Feeds fill events to the tracked orders, in order; returns the orders that closed. -/
def Desk.feedFills (d : Desk) : List BrokerFill → List String × Desk
  | [] => ([], d)
  | f :: rest =>
    if (d.order? f.orderId).isNone then Desk.feedFills d rest
    else
      match d.applyEventCore f.orderId f.event f.messageId with
      | (.ok (_, true), d) => let (closed, d) := Desk.feedFills d rest; (f.orderId :: closed, d)
      | (_, d) => Desk.feedFills d rest

/-- Applies fills already recorded in the inbox: the ledger, then the orders, then the inbox
marks. Returns how many were applied; a refused batch changes nothing. -/
def applyFills (w : World) (fills : List BrokerFill) : Except Fault Nat × World :=
  let (d, v) := w
  if fills.isEmpty then (.ok 0, w)
  else
    match d.ledger.applyCanonical (fills.map (·.tagged)) with
    | .error e => (.error e.toFault, w)
    | .ok ledger =>
      let (closed, d) := Desk.feedFills { d with ledger } (BrokerFill.sortCanonical fills)
      let d := d.refreshLimiter
      let v := closed.foldl Venue.forget v
      (.ok fills.length, (d, { v with store := v.store.markAppliedAll v.now (fills.map (·.messageId)) }))

/-- What an ingest did. -/
structure IngestResult where
  applied : Nat := 0
  duplicates : Nat := 0
  deriving Repr, DecidableEq, Inhabited

/-- Records reports in the inbox of a run, in order: the reports it had not seen, how many it
had seen, and the venue after. -/
def Venue.recordFills (v : Venue) (runId : String) : List BrokerFill → List BrokerFill × Nat × Venue
  | [] => ([], 0, v)
  | f :: rest =>
    let (created, store) := v.store.insertInbox v.now runId f.messageId f.encode
    let (fresh, dups, v) := Venue.recordFills { v with store } runId rest
    if created then (f :: fresh, dups, v) else (fresh, dups + 1, v)

/-- Removes inbox rows whose fills never reached the ledger. -/
def Venue.discardAll (v : Venue) (messageIds : List String) : Venue :=
  { v with store := messageIds.foldl Store.discard v.store }

/-- Disarms after the ledger refused a batch. -/
def haltIntegrity (w : World) : World := (disarm w DisarmReason.integrityViolation.text).2

/-- Records fills in the inbox and applies the new ones. Every fill needs a message id. -/
def ingestFills (w : World) (fills : List BrokerFill) : Except Fault IngestResult × World :=
  if fills.any (fun f => Text.isBlank f.messageId) then
    (.error (invalidIntent "fill without broker message id"), w)
  else
    let (d, v) := w
    let (fresh, dups, v) := v.recordFills d.runId fills
    match applyFills (d, v) fresh with
    | (.ok n, w) => (.ok { applied := n, duplicates := dups }, w)
    | (.error f, (d, v)) => (.error f, haltIntegrity (d, v.discardAll (fresh.map (·.messageId))))

end TradeDesk
