import TradeDesk.Fault
import TradeDesk.Json.Basic
/-!
# Arming

The desk trades only while armed. A disarmed desk records why, as one of five reasons. A
starting desk resolves its state from the one it persisted: a persisted disarm with a known
reason is kept, so an operator sees why before arming again; anything else, including a
persisted armed state, starts disarmed for the boot default. Boot is fail-closed.
-/

namespace TradeDesk

/-- Why trading is disabled. -/
inductive DisarmReason where
  | bootDefault
  | manualDisarm
  | deadmanHalt
  | integrityViolation
  | reconcileDrift
  deriving Repr, DecidableEq, Inhabited

namespace DisarmReason

/-- The name of a reason. -/
def text : DisarmReason → String
  | .bootDefault => "BOOT_DEFAULT"
  | .manualDisarm => "MANUAL_DISARM"
  | .deadmanHalt => "DEADMAN_HALT"
  | .integrityViolation => "INTEGRITY_VIOLATION"
  | .reconcileDrift => "RECONCILE_DRIFT"

/-- All reasons. -/
def all : List DisarmReason := [.bootDefault, .manualDisarm, .deadmanHalt, .integrityViolation, .reconcileDrift]

/-- The reason a text names exactly, if any. -/
def ofText? (t : String) : Option DisarmReason := all.find? (·.text = t)

end DisarmReason

/-- An arm state as recorded: armed or not, and the text of the reason (empty when none). A
stored state may hold any text. -/
structure ArmState where
  armed : Bool
  reason : String := ""
  deriving Repr, DecidableEq, Inhabited

namespace ArmState

/-- Armed. -/
def armedState : ArmState := { armed := true }

/-- Disarmed for a reason. -/
def disarmed (r : DisarmReason) : ArmState := { armed := false, reason := r.text }

/-- The state a starting desk uses, from the one it persisted. -/
def boot : Option ArmState → ArmState
  | some s => if !s.armed ∧ (DisarmReason.ofText? s.reason).isSome then s else disarmed .bootDefault
  | none => disarmed .bootDefault

/-- The state as JSON; the reason only when there is one. -/
def toJson (s : ArmState) : Json :=
  .obj ([("armed", .bool s.armed)] ++ if s.reason = "" then [] else [("reason", .str s.reason)])

end ArmState

/-- Disarms for a reason given as text, which must name a reason. -/
def disarmFor (t : String) : Except Fault ArmState :=
  match DisarmReason.ofText? t with
  | some r => .ok (ArmState.disarmed r)
  | none => .error (.because .invalidReason "integrity: unknown disarm reason")

end TradeDesk
