import TradeDesk.Clock
import TradeDesk.Integrity.Arm
/-!
# The store

What the desk keeps durably: the outbox of intents waiting for the broker, the inbox of broker
messages waiting to be applied, the persisted arm state, and the broker ids of live orders in
the order they were registered. Outbox and inbox rows take their ids from one counter, so ids
are distinct across both and increase in insertion order.

An outbox row moves PENDING → CLAIMED (claimed by a dispatcher), CLAIMED → PENDING (released),
CLAIMED → SENT (sent to the broker), CLAIMED → FAILED (undecodable), and from any status to
ACKED.
-/

namespace TradeDesk

/-- The lifecycle states of an outbox row. -/
inductive OutboxStatus where
  | pending
  | claimed
  | sent
  | acked
  | failed
  /-- A text that names no status; no stored row has it. -/
  | other (text : String)
  deriving Repr, DecidableEq, Inhabited

namespace OutboxStatus

/-- The name of a status. -/
def text : OutboxStatus → String
  | .pending => "PENDING"
  | .claimed => "CLAIMED"
  | .sent => "SENT"
  | .acked => "ACKED"
  | .failed => "FAILED"
  | .other t => t

/-- All statuses. -/
def all : List OutboxStatus := [.pending, .claimed, .sent, .acked, .failed]

/-- The status a text names exactly, or the text kept as it is. -/
def ofText (t : String) : OutboxStatus := (all.find? (·.text = t)).getD (.other t)

/-- Whether the status is one of the five. -/
def valid : OutboxStatus → Bool
  | .other _ => false
  | _ => true

end OutboxStatus

/-- A durable intent and its dispatch lifecycle. -/
structure OutboxRow where
  id : Nat
  runId : String
  key : String
  orderJson : String
  status : OutboxStatus
  createdAt : Instant
  claimedBy : Option String := none
  claimedAt : Option Instant := none
  sentAt : Option Instant := none
  deriving Repr, DecidableEq, Inhabited

/-- A broker message recorded before it is applied. -/
structure InboxRow where
  id : Nat
  runId : String
  messageId : String
  messageJson : String
  receivedAt : Instant
  appliedAt : Option Instant := none
  deriving Repr, DecidableEq, Inhabited

/-- One registered broker id of an order. -/
structure Mapping where
  internalId : String
  brokerId : String
  deriving Repr, DecidableEq, Inhabited

/-- The durable state of the desk. -/
structure Store where
  outbox : List OutboxRow := []
  inbox : List InboxRow := []
  arm : Option ArmState := none
  mappings : List Mapping := []
  /-- The last id given to a row. -/
  lastId : Nat := 0
  deriving Repr, Inhabited

end TradeDesk
