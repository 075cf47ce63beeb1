import TradeDesk.Store.Basic
/-!
# Broker ids of live orders

The broker's id for each internal order id, kept ordered by internal id with one entry per id.
Registering an id replaces its broker id; loading registers entries in order, so of two entries
for one id the later counts.
-/

namespace TradeDesk

/-- Internal order ids to broker ids, ordered by internal id. -/
structure IdMap where
  entries : List Mapping := []
  deriving Repr, DecidableEq, Inhabited

namespace IdMap

/-- The entries with one put in its place, replacing any of its id. -/
def insertSorted (m : Mapping) : List Mapping → List Mapping
  | [] => [m]
  | e :: rest =>
    if m.internalId < e.internalId then m :: e :: rest
    else if m.internalId = e.internalId then m :: rest
    else e :: insertSorted m rest

/-- Registers the broker id of an internal id. -/
def register (m : IdMap) (internalId brokerId : String) : IdMap :=
  ⟨insertSorted { internalId, brokerId } m.entries⟩

/-- Forgets an internal id. -/
def deregister (m : IdMap) (internalId : String) : IdMap := ⟨m.entries.filter (·.internalId ≠ internalId)⟩

/-- The broker id of an internal id. -/
def brokerId? (m : IdMap) (internalId : String) : Option String :=
  (m.entries.find? (·.internalId = internalId)).map (·.brokerId)

/-- The number of ids. -/
def size (m : IdMap) : Nat := m.entries.length

/-- Registers every entry, in order. -/
def load (m : IdMap) (es : List Mapping) : IdMap := es.foldl (fun m e => m.register e.internalId e.brokerId) m

end IdMap

end TradeDesk
