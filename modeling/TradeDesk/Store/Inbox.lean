import TradeDesk.Store.Basic
import TradeDesk.Fault
/-!
# The inbox and the desk's settings

Broker messages are recorded once per message id, stamped when applied (once), and may be
discarded while unapplied so that a later delivery counts as new. The store also keeps the last
arm state saved and the broker id of each live order, in registration order.
-/

namespace TradeDesk.Store

/-- The inbox row of a message id. -/
def message? (s : Store) (messageId : String) : Option InboxRow := s.inbox.find? (·.messageId = messageId)

/-- Records a message; false when its id was recorded before. -/
def insertInbox (s : Store) (now : Instant) (runId messageId messageJson : String) : Bool × Store :=
  if (s.message? messageId).isSome then (false, s)
  else
    let id := s.lastId + 1
    (true, { s with lastId := id, inbox := s.inbox ++ [{ id, runId, messageId, messageJson, receivedAt := now }] })

/-- Stamps a message as applied, the first time only; a not-found refusal when it is unknown. -/
def markApplied (s : Store) (now : Instant) (messageId : String) : Except Fault Store :=
  match s.message? messageId with
  | none => .error (.because .notFound ("inbox " ++ messageId ++ ": store: not found"))
  | some _ =>
    .ok { s with inbox := s.inbox.map fun r =>
      if r.messageId = messageId then { r with appliedAt := r.appliedAt <|> some now } else r }

/-- Stamps messages as applied in order, passing over the unknown ones. -/
def markAppliedAll (s : Store) (now : Instant) (messageIds : List String) : Store :=
  messageIds.foldl (fun s id => match s.markApplied now id with
    | .ok s' => s'
    | .error _ => s) s

/-- Deletes a message that is not applied; an applied or unknown one stays as it is. -/
def discard (s : Store) (messageId : String) : Store :=
  match s.message? messageId with
  | some r => if r.appliedAt.isNone then { s with inbox := s.inbox.filter (·.messageId ≠ messageId) } else s
  | none => s

/-- The messages of a run, by id. -/
def inboxOf (s : Store) (runId : String) : List InboxRow := s.inbox.filter (·.runId = runId)

/-- The unapplied messages of a run, by id. -/
def unappliedOf (s : Store) (runId : String) : List InboxRow :=
  s.inbox.filter fun r => r.runId = runId ∧ r.appliedAt.isNone

/-- Saves the arm state. -/
def saveArm (s : Store) (a : ArmState) : Store := { s with arm := some a }

/-- Registers or replaces the broker id of an order, keeping its place. -/
def upsertMapping (s : Store) (internalId brokerId : String) : Store :=
  if s.mappings.any (·.internalId = internalId) then
    { s with mappings := s.mappings.map fun m => if m.internalId = internalId then { m with brokerId } else m }
  else { s with mappings := s.mappings ++ [{ internalId, brokerId }] }

/-- Removes the broker id of an order. -/
def removeMapping (s : Store) (internalId : String) : Store :=
  { s with mappings := s.mappings.filter (·.internalId ≠ internalId) }

end TradeDesk.Store
