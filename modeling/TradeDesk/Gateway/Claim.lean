import TradeDesk.Store.Basic
import TradeDesk.Fault
import TradeDesk.Text.Numeral
/-!
# Claims

A claim is the proof that a caller holds an outbox row: the broker is asked to submit only under
the key of a claimed (or sent, for a resubmission) row. A claim with an empty key proves
nothing.
-/

namespace TradeDesk

/-- The key of a claimed outbox row and the row's id. -/
structure Claim where
  outboxId : Int := 0
  key : String := ""
  deriving Repr, DecidableEq, Inhabited

namespace Claim

/-- Whether the claim proves a row is held. -/
def valid (c : Claim) : Bool := c.key ≠ ""

/-- The refusal of a claim. -/
def invalid : Fault := .because .invalidClaim "execution: outbox claim is not valid"

/-- The claim of a row with this id, key and status: it needs a key, and a row that is claimed
or sent. -/
def ofParts (id : Int) (key : String) (status : OutboxStatus) : Except Fault Claim :=
  if key = "" then .error invalid
  else if status = .claimed ∨ status = .sent then .ok { outboxId := id, key }
  else .error (invalid.join (.plain ("outbox " ++ Text.ofInt id ++ " is " ++ status.text)))

/-- The claim of a row, if there is one. -/
def ofRow : Option OutboxRow → Except Fault Claim
  | none => .error invalid
  | some r => ofParts r.id r.key r.status

end Claim

end TradeDesk
