import TradeDesk.Desk.Basic
/-!
# Order events, cancels and replaces

An event is applied to a tracked order that is not halted. An illegal event halts that order
only, with the refusal's text as the reason; no later event, cancel or replace is taken for it.
A replace acknowledgement sets the quantity asked for by the pending replace, unless less than
is already filled. An order that becomes terminal loses its broker id; its persisted mapping is
removed and its outbox row acked.

A cancel or replace the order's state would refuse is refused before the broker is asked, and
the order is not halted. Untracked and terminal orders are left to the gateway, which refuses
them as unknown (no broker id) unless a gate refuses first. After the broker accepts, the request
is applied to the order; a cancel the broker reports as done is acknowledged at once.
-/

namespace TradeDesk

namespace Desk

/-- Applies an event to a tracked order; also tells whether the order became terminal. -/
def applyEventCore (d : Desk) (orderId : String) (ev : Event) (eventId : String) :
    Except Fault (Order × Bool) × Desk :=
  match d.order? orderId with
  | none => (.error (orderNotFound orderId), d)
  | some o =>
    match d.haltReason? orderId with
    | some reason => (.error (orderHalted orderId reason), d)
    | none =>
      match o.apply ev eventId with
      | .error f => (.error f, { d with halted := (orderId, f.message) :: d.halted })
      | .ok o' =>
        let o' :=
          if ev.kind = .replaceAck then
            match d.replacing.lookup orderId with
            | some q => if o'.filledQty ≤ q then { o' with totalQty := q } else o'
            | none => o'
          else o'
        let settled := ev.kind = .replaceAck ∨ ev.kind = .replaceReject
        let terminal := o'.state.terminal && !o.state.terminal
        let d := d.putOrder o'
        let d := if settled ∨ terminal then { d with replacing := d.replacing.filter (·.1 ≠ orderId) } else d
        let d := if terminal then { d with ids := d.ids.deregister orderId } else d
        (.ok (o', terminal), d)

/-- The refusal of a cancel or replace by the state of a tracked, live order. -/
def checkRequest (d : Desk) (orderId : String) (ev : Event) : Except Fault Unit :=
  match d.order? orderId with
  | none => .ok ()
  | some o =>
    if o.state.terminal then .ok ()
    else match o.check ev with
      | .ok () => .ok ()
      | .error f => .error (Fault.join (.because .requestRefused "trade: request not allowed in the order's state") f)

/-- The id map the gateway gets for an order: its one mapping, or none. -/
def mappingFor (d : Desk) (orderId : String) : IdMap :=
  match d.ids.brokerId? orderId with
  | some b => IdMap.register {} orderId b
  | none => {}

end Desk

/-- Drops the persisted mapping of a terminal order and acks its outbox row. -/
def Venue.forget (v : Venue) (orderId : String) : Venue :=
  { v with store := ((v.store.removeMapping orderId).markAcked orderId).2 }

/-- Applies a broker event to an order. -/
def applyEvent (w : World) (orderId : String) (ev : Event) (eventId : String) : Except Fault Order × World :=
  let (d, v) := w
  match d.applyEventCore orderId ev eventId with
  | (.error f, d) => (.error f, (d, v))
  | (.ok (o, terminal), d) => (.ok o, (d, if terminal then v.forget orderId else v))

/-- The desk as the sink of dispatching: it persists and registers the broker id, and starts
tracking the order unless it already does. Reporting an order twice is harmless. -/
def onSubmitted : Sink Desk := fun intent ack (d, v) =>
  let v := { v with store := v.store.upsertMapping intent.key ack.brokerId }
  let d := { d with ids := d.ids.register intent.key ack.brokerId }
  let d := if (d.order? intent.key).isSome then d else d.putOrder (Order.new intent.key intent.symbol intent.quantity)
  (.ok (), (d, v))

/-- Asks the broker to cancel an order, and records the request. The broker's answer is kept
even when recording fails. -/
def cancel (w : World) (orderId : String) : Option BrokerAck × Option Fault × World :=
  let (d, v) := w
  match d.haltReason? orderId with
  | some reason => (none, some (orderHalted orderId reason), w)
  | none =>
    match d.checkRequest orderId ⟨.cancelRequest, 0⟩ with
    | .error f => (none, some f, w)
    | .ok () =>
      match v.cancel (d.gates v.now) orderId (some (d.mappingFor orderId)) with
      | (.error f, v) => (none, some f, (d, v))
      | (.ok ack, v) =>
        let (r, d) := d.applyEventCore orderId ⟨.cancelRequest, 0⟩ ""
        let (r, d) := match r with
          | .ok _ =>
            if ack.status = "canceled" then
              match d.applyEventCore orderId ⟨.cancelAck, 0⟩ ("cancel-ack-" ++ ack.brokerId) with
              | (.ok (_, t), d) => ((.ok t : Except Fault Bool), d)
              | (.error f, d) => (.error f, d)
            else (.ok false, d)
          | .error f => (.error f, d)
        match r with
        | .ok terminal => (some ack, none, (d, if terminal then v.forget orderId else v))
        | .error f => (some ack, some f, (d, v))

/-- Asks the broker to amend an order, and records the request with the quantity asked for. A
new broker id replaces the mapping. -/
def replace (w : World) (orderId : String) (qty : Int64) (limit : Option Int64) (tif : String) :
    Option BrokerAck × Option Fault × World :=
  let (d, v) := w
  match d.haltReason? orderId with
  | some reason => (none, some (orderHalted orderId reason), w)
  | none =>
    match d.checkRequest orderId ⟨.replaceRequest, 0⟩ with
    | .error f => (none, some f, w)
    | .ok () =>
      let ids := d.mappingFor orderId
      let old := (ids.brokerId? orderId).getD ""
      match v.replace (d.gates v.now) orderId (some ids) qty limit tif with
      | (.error f, v) => (none, some f, (d, v))
      | (.ok ack, v) =>
        let moved := ack.brokerId ≠ "" ∧ ack.brokerId ≠ old
        let v := if moved then { v with store := v.store.upsertMapping orderId ack.brokerId } else v
        let d := if moved then { d with ids := d.ids.register orderId ack.brokerId } else d
        match d.applyEventCore orderId ⟨.replaceRequest, 0⟩ "" with
        | (.ok _, d) =>
          (some ack, none, ({ d with replacing := (orderId, qty) :: d.replacing.filter (·.1 ≠ orderId) }, v))
        | (.error f, d) => (some ack, some f, (d, v))

end TradeDesk
