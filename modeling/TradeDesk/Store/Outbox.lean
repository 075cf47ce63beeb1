import TradeDesk.Store.Basic
import TradeDesk.Fault
/-!
# The outbox

Operations on the outbox. Each transition is guarded on the row's current status and answers
whether it moved the row; a key without a row moves nothing.
-/

namespace TradeDesk.Store

/-- The row of a key. -/
def row? (s : Store) (key : String) : Option OutboxRow := s.outbox.find? (·.key = key)

/-- Enqueues an intent's text under a key as a pending row; false when the key is taken. An
empty key is refused. -/
def enqueue (s : Store) (now : Instant) (runId key orderJson : String) : Except Fault (Bool × Store) :=
  if key = "" then .error (.plain "enqueue: empty idempotency key")
  else if (s.row? key).isSome then .ok (false, s)
  else
    let id := s.lastId + 1
    .ok (true, { s with
      lastId := id,
      outbox := s.outbox ++ [{ id, runId, key, orderJson, status := .pending, createdAt := now }] })

/-- Claims up to `limit` pending rows, oldest first, for a claimant: the claimed rows and the
store after. -/
def claimBatch (s : Store) (now : Instant) (limit : Int) (claimant : String) : List OutboxRow × Store :=
  let step := fun (acc : List OutboxRow × List OutboxRow) (r : OutboxRow) =>
    let (claimed, rows) := acc
    if (claimed.length : Int) < limit ∧ r.status = .pending then
      let r' := { r with status := .claimed, claimedBy := some claimant, claimedAt := some now }
      (claimed ++ [r'], rows ++ [r'])
    else (claimed, rows ++ [r])
  let (claimed, rows) := s.outbox.foldl step ([], [])
  (claimed, { s with outbox := rows })

/-- Applies a guarded change to the row of a key: whether it moved, and the store after. -/
def transition (s : Store) (key : String) (change : OutboxRow → Option OutboxRow) : Bool × Store :=
  match s.row? key with
  | none => (false, s)
  | some r =>
    match change r with
    | none => (false, s)
    | some r' => (true, { s with outbox := s.outbox.map fun x => if x.key = key then r' else x })

/-- Returns a claimed row to pending and clears its claim. -/
def release (s : Store) (key : String) : Bool × Store :=
  s.transition key fun r =>
    if r.status = .claimed then some { r with status := .pending, claimedBy := none, claimedAt := none }
    else none

/-- Moves a claimed row to sent, stamping the first time it is sent. -/
def markSent (s : Store) (now : Instant) (key : String) : Bool × Store :=
  s.transition key fun r =>
    if r.status = .claimed then some { r with status := .sent, sentAt := r.sentAt <|> some now }
    else none

/-- Moves a row to acked from any status. -/
def markAcked (s : Store) (key : String) : Bool × Store :=
  s.transition key fun r => some { r with status := .acked }

/-- Moves a claimed row to failed. -/
def markFailed (s : Store) (key : String) : Bool × Store :=
  s.transition key fun r => if r.status = .claimed then some { r with status := .failed } else none

/-- The refusal of a key that no outbox row has. -/
def missingRow (key : String) : Fault := .because .notFound ("outbox " ++ key ++ ": store: not found")

/-- The row of a key, or a not-found refusal. -/
def fetch (s : Store) (key : String) : Except Fault OutboxRow :=
  match s.row? key with
  | some r => .ok r
  | none => .error (missingRow key)

/-- The rows of a run that are not acked, by id. -/
def unacked (s : Store) (runId : String) : List OutboxRow :=
  s.outbox.filter fun r => r.runId = runId ∧ r.status ≠ .acked

/-- The claimed rows claimed strictly before the cutoff. -/
def staleClaims (s : Store) (cutoff : Instant) : List OutboxRow :=
  s.outbox.filter fun r => r.status == .claimed && r.claimedAt.any (· < cutoff)

end TradeDesk.Store
