import TradeDesk.Desk.Basic
import TradeDesk.Ledger.Report
import TradeDesk.Ledger.Valuation
import TradeDesk.Clock
/-!
# Views of the desk

What the desk shows of itself: its orders (each with its broker id and halt reason when it has
them), its accounting at the current marks, an outbox row with its order document embedded and
its times in RFC 3339, and its status. A view that holds a time has none when one of its times
has no RFC 3339 text, as a document that cannot be written whole is not written at all.
-/

namespace TradeDesk

/-- A member holding an instant as RFC 3339 text; none when the instant has no such text. -/
def Instant.field? (name : String) (t : Instant) : Option (String × Json) :=
  (Instant.rfc3339? t).map fun text => (name, .str text)

/-- An order as JSON. -/
def Order.toJson (o : Order) : Json :=
  .obj [("order_id", .str o.id), ("symbol", .str o.symbol), ("total_qty", .word o.totalQty),
    ("filled_qty", .word o.filledQty), ("state", .str o.state.text)]

/-- Marks as a JSON object. -/
def Marks.toJson (m : Marks) : Json := .obj (m.map fun (s, p) => (s, .word p))

namespace Desk

/-- A tracked order with its broker id and halt reason, when it has them. -/
def orderView (d : Desk) (o : Order) : Json :=
  match o.toJson with
  | .obj ms =>
    .obj (ms ++ ((d.ids.brokerId? o.id).toList.filter (· ≠ "")).map (("broker_order_id", .str ·)) ++
      ((d.haltReason? o.id).toList.filter (· ≠ "")).map (("halt_reason", .str ·)))
  | j => j

/-- Every tracked order, by id. -/
def orderViews (d : Desk) : List Json := d.orders.map d.orderView

/-- The exposure at the current marks. -/
def exposure (d : Desk) : Exposure := d.ledger.standing.holdings.exposure d.marks

/-- The unrealized profit at the current marks. -/
def unrealized (d : Desk) : Int64 := d.ledger.standing.holdings.unrealized d.marks

/-- The equity at the current marks. -/
def equity (d : Desk) : Int64 := d.ledger.standing.holdings.equity d.ledger.standing.cash d.marks

/-- The accounting summary at the current marks. -/
def portfolio (d : Desk) : Json :=
  .obj [("snapshot", d.ledger.snapshot), ("marks", d.marks.toJson), ("exposure", d.exposure.toJson),
    ("unrealized_pnl_micros", .word d.unrealized), ("equity_micros", .word d.equity),
    ("verified", .bool d.ledger.verify)]

/-- The status of the desk at `now`; none when the time of the last clean reconcile has no
RFC 3339 text. -/
def status? (d : Desk) (now : Instant) : Option Json := do
  let lastClean ← d.guard.lastClean.toList.mapM (Instant.field? "last_clean_reconcile_at")
  pure <| .obj ([("run_id", .str d.runId), ("arm_state", d.arm.toJson),
      ("reconcile_clean", .bool (d.guard.isClean now))] ++ lastClean ++
    (if d.limiter.blocked = "" then [] else [("risk_blocked", .str d.limiter.blocked)]) ++
    [("risk_allowed", .bool d.limiter.allowed), ("open_orders", .nat d.openCount), ("ledger", d.ledger.snapshot)])

end Desk

/-- An outbox row as JSON, its order document embedded as written; none when the document is
not JSON or one of the row's times has no RFC 3339 text. -/
def OutboxRow.toJson? (r : OutboxRow) : Option Json := do
  let doc ← Json.parse? r.orderJson
  let created ← Instant.field? "created_at_utc" r.createdAt
  let claimedAt ← r.claimedAt.toList.mapM (Instant.field? "claimed_at_utc")
  let sentAt ← r.sentAt.toList.mapM (Instant.field? "sent_at_utc")
  pure <| .obj ([("outbox_id", .nat r.id), ("run_id", .str r.runId), ("idempotency_key", .str r.key),
      ("order_json", .verbatim r.orderJson doc), ("status", .str r.status.text), created] ++
    (r.claimedBy.toList.map (("claimed_by", .str ·))) ++ claimedAt ++ sentAt)

end TradeDesk
