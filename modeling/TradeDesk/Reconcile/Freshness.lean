import TradeDesk.Clock
/-!
# Freshness of the last reconcile

The reconcile gate is open only while the last clean comparison with the broker is recent: at
most `bound` old. A comparison that found drift forgets the last clean one, so the gate stays
closed until the next clean comparison.
-/

namespace TradeDesk

/-- The last clean comparison, and how old it may be. -/
structure Freshness where
  bound : Int64
  lastClean : Option Instant := none
  deriving Repr, DecidableEq, Inhabited

namespace Freshness

/-- Records the outcome of a comparison at `now`. -/
def record (g : Freshness) (now : Instant) (clean : Bool) : Freshness :=
  { g with lastClean := if clean then some now else none }

/-- Whether the last clean comparison is at most `bound` old at `now`. -/
def isClean (g : Freshness) (now : Instant) : Bool :=
  match g.lastClean with
  | some t => Instant.since now t ≤ g.bound
  | none => false

end Freshness

end TradeDesk
