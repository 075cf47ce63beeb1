import TradeDesk.Store.Basic
import TradeDesk.Broker.Paper
/-!
# The venue

What the desk shares with the outside: the clock, the counter of issued identifiers, the durable
store and the broker. Dispatching, recovery and the desk's own operations all act on a venue.
-/

namespace TradeDesk

/-- The clock, the id counter, the store and the broker. -/
structure Venue where
  now : Instant := 0
  ids : IdSource := {}
  store : Store := {}
  broker : Paper := {}
  deriving Repr, Inhabited

/-- Moves the clock. -/
def Venue.advance (v : Venue) (ns : Int) : Venue := { v with now := v.now + ns }

end TradeDesk
