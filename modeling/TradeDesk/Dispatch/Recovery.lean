import TradeDesk.Dispatch.Basic
/-!
# Recovery

After a crash, rows may be claimed or sent without the desk knowing whether the broker has the
order. Recovery asks the broker by the row's key before doing anything, so that no order is
submitted twice.

`recoverRun` inspects each claimed or sent row of a run: a row whose intent does not decode is
deferred; an order the broker has is completed with status `recovered`; otherwise the intent is
resubmitted through the gateway and completed, and a gate refusal defers it. A failed lookup, a
broker refusal, or a sink refusal stops the pass.

`sweepStaleClaims` reads the recoverer's own clock `now` and inspects rows claimed strictly before
`now − ttl`, computed exactly: when the broker has no order under the key the claim is released,
when it has one the row is completed as recovered at `now` (if its intent decodes), and a failed
lookup or undecodable intent defers it. It never submits.
-/

namespace TradeDesk

/-- What a recovery or sweep pass did. -/
structure RecoveryReport where
  inspected : Nat := 0
  acked : Nat := 0
  resubmitted : Nat := 0
  released : Nat := 0
  deferred : Nat := 0
  deriving Repr, DecidableEq, Inhabited

/-- Looks up the broker id of a key at the broker. -/
def Venue.lookup (v : Venue) (key : String) : Except Fault (Option String) × Venue :=
  let (r, broker) := v.broker.lookup key
  (r, { v with broker })

/-- The acknowledgement of an order found at the broker. -/
def recoveredAck (brokerId : String) (now : Instant) : BrokerAck := { brokerId, status := "recovered", stamped := now }

/-- Handles the in-doubt rows of a run in order. -/
def recoverRows {σ : Type} (gs : Gates) (sink : Sink σ) :
    List OutboxRow → RecoveryReport → σ × Venue → Except Fault RecoveryReport × (σ × Venue)
  | [], rep, w => (.ok rep, w)
  | row :: rest, rep, w =>
    if !(row.status = .claimed ∨ row.status = .sent) then recoverRows gs sink rest rep w
    else
      let rep := { rep with inspected := rep.inspected + 1 }
      match Intent.ofStored row.id row.orderJson with
      | .error _ => recoverRows gs sink rest { rep with deferred := rep.deferred + 1 } w
      | .ok intent =>
        let intent := { intent with key := row.key }
        match w.2.lookup row.key with
        | (.error f, v) => (.error (f.within ("recover " ++ row.key)), (w.1, v))
        | (.ok (some brokerId), v) =>
          match complete sink intent (recoveredAck brokerId v.now) (w.1, v) with
          | (.error f, w) => (.error f, w)
          | (.ok (), w) => recoverRows gs sink rest { rep with acked := rep.acked + 1 } w
        | (.ok none, v) =>
          let submitted : Except Fault BrokerAck × Venue :=
            match Claim.ofRow (some row) with
            | .error f => (.error f, v)
            | .ok claim => v.submit gs claim intent
          match submitted with
          | (.error f, v) =>
            if f.isGateRefusal then recoverRows gs sink rest { rep with deferred := rep.deferred + 1 } (w.1, v)
            else (.error f, (w.1, v))
          | (.ok ack, v) =>
            match complete sink intent ack (w.1, v) with
            | (.error f, w) => (.error f, w)
            | (.ok (), w) =>
              recoverRows gs sink rest { rep with resubmitted := rep.resubmitted + 1, acked := rep.acked + 1 } w

/-- Resolves the claimed and sent rows of a run. -/
def recoverRun {σ : Type} (gs : Gates) (sink : Sink σ) (runId : String) (w : σ × Venue) :
    Except Fault RecoveryReport × (σ × Venue) :=
  recoverRows gs sink (w.2.store.unacked runId) {} w

/-- Handles stale claims in order; what is found at the broker is stamped with the recoverer's
clock `now`. -/
def sweepRows {σ : Type} (sink : Sink σ) (now : Instant) :
    List OutboxRow → RecoveryReport → σ × Venue → Except Fault RecoveryReport × (σ × Venue)
  | [], rep, w => (.ok rep, w)
  | row :: rest, rep, w =>
    let rep := { rep with inspected := rep.inspected + 1 }
    match w.2.lookup row.key with
    | (.error _, v) => sweepRows sink now rest { rep with deferred := rep.deferred + 1 } (w.1, v)
    | (.ok none, v) =>
      let (moved, store) := v.store.release row.key
      sweepRows sink now rest (if moved then { rep with released := rep.released + 1 } else rep) (w.1, { v with store })
    | (.ok (some brokerId), v) =>
      match Intent.ofStored row.id row.orderJson with
      | .error _ => sweepRows sink now rest { rep with deferred := rep.deferred + 1 } (w.1, v)
      | .ok intent =>
        let intent := { intent with key := row.key }
        match complete sink intent (recoveredAck brokerId now) (w.1, v) with
        | (.error f, w) => (.error f, w)
        | (.ok (), w) => sweepRows sink now rest { rep with acked := rep.acked + 1 } w

/-- Releases or completes the rows claimed strictly before `now − ttl`, by the recoverer's clock
`now`. -/
def sweepStaleClaims {σ : Type} (sink : Sink σ) (now : Instant) (ttl : Int64) (w : σ × Venue) :
    Except Fault RecoveryReport × (σ × Venue) :=
  sweepRows sink now (w.2.store.staleClaims (now - ttl.toInt)) {} w

end TradeDesk
