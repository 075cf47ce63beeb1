import TradeDesk.Desk.Basic
/-!
# Queuing intents

An intent is checked and completed before it is written to the outbox: it needs a symbol that is
not blank, a positive quantity and a valid side, and a limit, when it has one, must be positive.
An empty key is replaced by a fresh id, an empty order type by `market` (or `limit` when a limit
is set), an empty time in force by `day`. The risk limiter then checks the change of position the
intent would make. An intent whose key is already queued is not queued again.

Targets are turned into intents against the current positions and queued in symbol order, up to
the first refusal; the intents queued before it are kept.
-/

namespace TradeDesk

/-- Checks, completes and queues an intent; tells whether it was new. -/
def enqueueIntent (w : World) (intent : Intent) : Except Fault (Intent × Bool) × World :=
  let (d, v) := w
  if Text.isBlank intent.symbol ∨ intent.quantity ≤ 0 ∨ !intent.side.valid then
    (.error (invalidIntent "symbol, side and positive quantity are required"), w)
  else if intent.limit.any (fun l => decide (l ≤ 0)) then
    (.error (invalidIntent "limit price must be positive"), w)
  else
    let (intent, v) :=
      if intent.key = "" then let (k, ids) := v.ids.next; ({ intent with key := k }, { v with ids })
      else (intent, v)
    let intent :=
      if intent.orderType = "" then { intent with orderType := if intent.limit.isSome then "limit" else "market" }
      else intent
    let intent := if intent.timeInForce = "" then { intent with timeInForce := "day" } else intent
    let delta := if intent.side = .sell then -intent.quantity else intent.quantity
    match d.limiter.check intent.symbol delta with
    | .error f => (.error f, (d, v))
    | .ok () =>
      match v.store.enqueue v.now d.runId intent.key intent.encode with
      | .error f => (.error f, (d, v))
      | .ok (created, store) => (.ok (intent, created), (d, { v with store }))

/-- Queues intents in order, up to the first refusal. -/
def enqueueAll (w : World) : List Intent → List Intent × Option Fault × World
  | [] => ([], none, w)
  | i :: rest =>
    match enqueueIntent w i with
    | (.error f, w) => ([], some (f.within ("target " ++ i.symbol)), w)
    | (.ok (queued, _), w) =>
      let (more, err, w) := enqueueAll w rest
      (queued :: more, err, w)

/-- Queues the intents that move the current positions to the targets. -/
def enqueueTargets (w : World) (targets : List (String × Int64)) : List Intent × Option Fault × World :=
  enqueueAll w (Intent.ofTargets w.1.positions targets)

end TradeDesk
