import TradeDesk.Desk.Fills
import TradeDesk.Reconcile.Drift
/-!
# Reconcile and restart

Reconcile compares the orders the desk expects open at the broker (working or partially filled,
with a broker id) with the broker's open orders. A broker order the desk does not track is still
known when its outbox row is claimed or sent: it was submitted and not yet reported. A clean
comparison is recorded with the freshness guard; drift closes the reconcile gate and disarms.
A desk that does not consult the broker records every reconcile as clean.

After a restart the desk is rebuilt from the store. The persisted broker mappings come back, with
an order for each whose outbox row still decodes. The run's inbox then rebuilds the ledger:
messages applied before are replayed as one batch (one that no longer decodes stops the restart);
the others were in flight when the previous process stopped, and each is applied on its own in
canonical order and discarded if it does not decode or the ledger refuses it.
-/

namespace TradeDesk

/-- The orders expected open at the broker, with their broker ids. -/
def Desk.expectedOpen (d : Desk) : List (String × String) :=
  d.orders.filterMap fun o =>
    if o.state = .working ∨ o.state = .partiallyFilled then (d.ids.brokerId? o.id).map (o.id, ·) else none

/-- Whether a broker order is known: tracked, or claimed or sent in the outbox. -/
def knownOrder (d : Desk) (s : Store) (id : String) : Bool :=
  (d.order? id).isSome ||
    match s.fetch id with
    | .ok row => row.status = .claimed || row.status = .sent
    | .error _ => false

/-- Compares the desk with the broker and records the outcome; drift disarms. -/
def reconcile (w : World) : List Drift × World :=
  let (d, v) := w
  if !d.lister then ([], ({ d with guard := d.guard.record v.now true }, v))
  else
    let drifts := compareBooks d.expectedOpen v.broker.openOrders (knownOrder d v.store)
    if drifts.isEmpty then ([], ({ d with guard := d.guard.record v.now true }, v))
    else (drifts, (disarm ({ d with guard := d.guard.record v.now false }, v) DisarmReason.reconcileDrift.text).2)

/-- What a desk is built from. -/
structure DeskConfig where
  runId : String
  initialCash : Int64
  fresh : Int64
  maxGross : Int64
  maxPerSymbol : Int64
  lister : Bool := true
  deriving Repr, Inhabited

/-- A desk that has done nothing yet, its arm state booted from a persisted one. -/
def Desk.boot (c : DeskConfig) (persisted : Option ArmState) : Desk :=
  { runId := c.runId, ledger := Ledger.new c.initialCash, arm := ArmState.boot persisted,
    guard := { bound := c.fresh }, limiter := Limiter.new c.maxGross c.maxPerSymbol, lister := c.lister }

/-- Tracks the order of each persisted mapping whose outbox row decodes. -/
def Desk.restoreOrders (d : Desk) (s : Store) : Desk :=
  s.mappings.foldl (fun d e =>
    if (d.order? e.internalId).isSome then d
    else match s.fetch e.internalId with
      | .error _ => d
      | .ok row =>
        match Intent.decode row.orderJson with
        | none => d
        | some i => d.putOrder (Order.new e.internalId i.symbol i.quantity)) { d with ids := d.ids.load s.mappings }

/-- Sorts inbox rows into fills applied before and fills in doubt, discarding in-doubt rows that
do not decode; an applied row that does not decode stops. -/
def sortInbox (v : Venue) : List InboxRow → Except Fault (List BrokerFill × List BrokerFill) × Venue
  | [] => (.ok ([], []), v)
  | row :: rest =>
    match BrokerFill.decode row.messageJson, row.appliedAt with
    | none, some _ =>
      (.error (.because .malformed ("restore inbox " ++ row.messageId ++ ": malformed broker fill")), v)
    | none, none => sortInbox (v.discardAll [row.messageId]) rest
    | some f, some _ =>
      match sortInbox v rest with
      | (.ok (acc, doubt), v) => (.ok (f :: acc, doubt), v)
      | r => r
    | some f, none =>
      match sortInbox v rest with
      | (.ok (acc, doubt), v) => (.ok (acc, f :: doubt), v)
      | r => r

/-- Applies in-doubt fills one by one, discarding those the ledger refuses. -/
def applyInDoubt (w : World) : List BrokerFill → World
  | [] => w
  | f :: rest =>
    match applyFills w [f] with
    | (.ok _, w) => applyInDoubt w rest
    | (.error _, (d, v)) => applyInDoubt (d, v.discardAll [f.messageId]) rest

/-- Rebuilds the desk's orders and ledger from the store. -/
def restore (w : World) : Except Fault Unit × World :=
  let (d, v) := w
  let d := d.restoreOrders v.store
  match sortInbox v (v.store.inboxOf d.runId) with
  | (.error f, v) => (.error f, (d, v))
  | (.ok (accepted, doubt), v) =>
    match applyFills (d, v) accepted with
    | (.error f, w) => (.error (f.within "restore ledger"), w)
    | (.ok _, w) => (.ok (), applyInDoubt w (BrokerFill.sortCanonical doubt))

end TradeDesk
