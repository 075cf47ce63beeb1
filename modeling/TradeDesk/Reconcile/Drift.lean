import TradeDesk.Json.Basic
/-!
# Drift between the desk and the broker

The orders the desk expects open (internal id to broker id) compared with the broker's open
orders (client order id to broker id). An expected order the broker does not list is missing at
the broker; one it lists under another broker id is a mismatch; a broker order the desk neither
expects nor otherwise knows is unknown at the broker. Drifts are ordered by internal id, and
there is at most one per id.
-/

namespace TradeDesk

/-- The kinds of disagreement. -/
inductive DriftKind where
  | missingAtBroker
  | unknownAtBroker
  | brokerIdMismatch
  deriving Repr, DecidableEq, Inhabited

/-- The name of a kind. -/
def DriftKind.text : DriftKind → String
  | .missingAtBroker => "MISSING_AT_BROKER"
  | .unknownAtBroker => "UNKNOWN_AT_BROKER"
  | .brokerIdMismatch => "BROKER_ID_MISMATCH"

/-- One disagreement. Empty ids are absent. -/
structure Drift where
  kind : DriftKind
  internalId : String
  localBrokerId : String := ""
  brokerId : String := ""
  deriving Repr, DecidableEq, Inhabited

/-- A drift as JSON; empty broker ids are left out. -/
def Drift.toJson (d : Drift) : Json :=
  .obj ([("kind", .str d.kind.text), ("internal_id", .str d.internalId)] ++
    (if d.localBrokerId = "" then [] else [("local_broker_id", .str d.localBrokerId)]) ++
    (if d.brokerId = "" then [] else [("broker_id", .str d.brokerId)]))

/-- The drifts between the expected orders and the broker's open orders; broker orders for which
`known` holds are not unknown. -/
def compareBooks (expected brokerOpen : List (String × String)) (known : String → Bool) : List Drift :=
  let fromExpected := expected.filterMap fun (id, mine) =>
    match brokerOpen.lookup id with
    | none => some { kind := .missingAtBroker, internalId := id, localBrokerId := mine }
    | some remote =>
      if remote = mine then none
      else some { kind := .brokerIdMismatch, internalId := id, localBrokerId := mine, brokerId := remote }
  let fromBroker := brokerOpen.filterMap fun (id, remote) =>
    if (expected.lookup id).isSome ∨ known id then none
    else some { kind := .unknownAtBroker, internalId := id, brokerId := remote }
  (fromExpected ++ fromBroker).mergeSort fun a b =>
    a.internalId < b.internalId ∨ (a.internalId = b.internalId ∧ a.kind.text ≤ b.kind.text)

end TradeDesk
