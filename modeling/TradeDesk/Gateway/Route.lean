import TradeDesk.Venue
import TradeDesk.Gateway.Claim
import TradeDesk.Gateway.IdMap
/-!
# The gateway

The only path to the broker. Every submit, cancel and replace first asks the three gates, in
order integrity, risk, reconcile, and is refused by the first that is closed, before anything
else is looked at. A submit then needs a valid claim and is sent under the claim's key, whatever
key the request had. A cancel or replace needs the order's broker id from the id map (a missing
map knows no order). A broker refusal comes back with the operation and the order's key in
front of its text.
-/

namespace TradeDesk

/-- The state of the three gates. -/
structure Gates where
  armed : Bool := true
  allowed : Bool := true
  clean : Bool := true
  deriving Repr, DecidableEq, Inhabited

namespace Gates

/-- The refusal of a closed gate. -/
def refusal (g : Gate) : Fault :=
  .because (.gateRefused g) <| match g with
    | .integrity => "execution: gate refused: integrity disarmed or halted"
    | .risk => "execution: gate refused: risk did not allow"
    | .reconcile => "execution: gate refused: reconcile is not clean"

/-- The first closed gate, if any. -/
def closed? (gs : Gates) : Option Gate :=
  if !gs.armed then some .integrity
  else if !gs.allowed then some .risk
  else if !gs.clean then some .reconcile
  else none

/-- Passes when every gate is open. -/
def enforce (gs : Gates) : Except Fault Unit :=
  match gs.closed? with
  | some g => .error (refusal g)
  | none => .ok ()

end Gates

/-- The refusal of an order without a broker id, the order's name given between quotes. -/
def unknownOrderQuoted (quoted : String) : Fault :=
  .because .unknownOrder ("execution: unknown order " ++ quoted ++ ": no broker id mapping")

/-- The refusal of an order without a broker id. -/
def unknownOrder (internalId : String) : Fault := unknownOrderQuoted (Text.quote internalId)

namespace Venue

/-- The token the gateway mints for its own calls. -/
def minted : InvokeToken := ⟨true⟩

/-- Submits an intent under a claim's key. -/
def submit (v : Venue) (gs : Gates) (claim : Claim) (req : Intent) : Except Fault BrokerAck × Venue :=
  match gs.enforce with
  | .error f => (.error f, v)
  | .ok () =>
    if !claim.valid then (.error Claim.invalid, v)
    else
      let (r, broker, ids) := v.broker.submit v.ids v.now minted { req with key := claim.key }
      ((r.mapError (Fault.within ("submit " ++ claim.key))), { v with broker, ids })

/-- Cancels the broker order of an internal id. -/
def cancel (v : Venue) (gs : Gates) (internalId : String) (ids : Option IdMap) : Except Fault BrokerAck × Venue :=
  match gs.enforce with
  | .error f => (.error f, v)
  | .ok () =>
    match ids.bind (·.brokerId? internalId) with
    | none => (.error (unknownOrder internalId), v)
    | some brokerId =>
      let (r, broker) := v.broker.cancel v.now minted brokerId
      (r.mapError (Fault.within ("cancel " ++ internalId)), { v with broker })

/-- Replaces quantity, limit and time in force of the broker order of an internal id. -/
def replace (v : Venue) (gs : Gates) (internalId : String) (ids : Option IdMap) (qty : Int64)
    (limit : Option Int64) (tif : String) : Except Fault BrokerAck × Venue :=
  match gs.enforce with
  | .error f => (.error f, v)
  | .ok () =>
    match ids.bind (·.brokerId? internalId) with
    | none => (.error (unknownOrder internalId), v)
    | some brokerId =>
      let (r, broker) := v.broker.replace v.now minted brokerId qty limit tif
      (r.mapError (Fault.within ("replace " ++ internalId)), { v with broker })

end Venue

end TradeDesk
