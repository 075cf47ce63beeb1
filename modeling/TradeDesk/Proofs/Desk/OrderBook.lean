import TradeDesk.Proofs.Desk.Replacing
/-!
# A restart rebuilds the order book

A restart builds a new desk over the store a session left. It loads the id map from the persisted
mappings and tracks, for each mapped id, a new order of the intent in its acked outbox row
(`Desk.Mapped.restoreOrders_spec`); then it replays the run's recorded fills over those orders.
Since the session kept its mappings exactly for its orders that are not terminal, and each order
with the symbol of its intent (`Desk.Mapped`), the new desk tracks exactly the session's orders
that are not terminal, each with the session's symbol (`restart_rebuilds_orders`).

The replay is a run of fill events, which never add an order, change a symbol or a total, or
register a broker id (`Desk.Replays`). So every order has the quantity of its intent as its total,
and the id map is the session's, less the orders that the replay made terminal.

Not claimed: that the totals and filled quantities are the session's. An order's total is its
intent's, whatever replace acknowledgements made of it in the session, and its filled quantity is
what the recorded fills add up to against that total; a fill beyond it closes the order and drops
its mapping (`restart_forgets_replaced_quantity`).
-/

namespace TradeDesk

namespace Desk

variable {d d' d'' : Desk}

/-- What the replay of a restart keeps of the desk it starts from: the tracked ids, each order's
symbol and total quantity, and no broker id it did not have. -/
structure Replays (d d' : Desk) : Prop where
  tracked : ∀ k, (d'.order? k).isSome ↔ (d.order? k).isSome
  orders : ∀ k o, d.order? k = some o → ∃ o', d'.order? k = some o' ∧ o'.symbol = o.symbol ∧ o'.totalQty = o.totalQty
  ids : ∀ e ∈ d'.ids.entries, e ∈ d.ids.entries

namespace Replays

theorem refl (d : Desk) : Replays d d := ⟨fun _ => Iff.rfl, fun _ o ho => ⟨o, ho, rfl, rfl⟩, fun _ he => he⟩

theorem trans (h₁ : Replays d d') (h₂ : Replays d' d'') : Replays d d'' where
  tracked := fun k => (h₂.tracked k).trans (h₁.tracked k)
  orders := fun k o ho => by
    obtain ⟨o', ho', hs', ht'⟩ := h₁.orders k o ho
    obtain ⟨o'', ho'', hs'', ht''⟩ := h₂.orders k o' ho'
    exact ⟨o'', ho'', hs''.trans hs', ht''.trans ht'⟩
  ids := fun e he => h₁.ids e (h₂.ids e he)

/-- An order event that is no replace acknowledgement changes only its own order, keeping its
symbol and total, and at most deregisters its id. -/
theorem applyEventCore {k : String} {ev : Event} {eventId : String} {r : Except Fault (Order × Bool)}
    (hk : ev.kind ≠ .replaceAck) (he : d.applyEventCore k ev eventId = (r, d')) : Replays d d' := by
  cases r with
  | error f =>
    obtain ⟨hids, hord, -⟩ := applyEventCore_error he
    refine ⟨fun j => by rw [order?_congr hord], fun j o hj => ⟨o, by rw [order?_congr hord]; exact hj, rfl, rfl⟩,
      fun e he' => hids ▸ he'⟩
  | ok p =>
    obtain ⟨o', t⟩ := p
    obtain ⟨o, o₁, ho, -, -, -, hsym, -, -, hids⟩ := applyEventCore_ok he
    refine ⟨fun j => ?_, fun j o₀ hj => ?_, fun e he' => ?_⟩
    · rw [order?_applyEventCore_ok he]
      split
      · rename_i hkj
        subst hkj
        rw [ho]
        rfl
      · rfl
    · obtain ⟨o'', ho'', htot | ⟨-, hack, -⟩⟩ := totals_applyEventCore he hj
      · refine ⟨o'', ho'', ?_, htot⟩
        rw [order?_applyEventCore_ok he] at ho''
        split at ho''
        · rename_i hkj
          subst hkj
          rw [ho] at hj
          cases hj
          cases ho''
          exact hsym
        · rw [hj] at ho''
          cases ho''
          rfl
      · exact absurd hack hk
    · rw [hids] at he'
      split at he'
      · exact ((IdMap.mem_deregister _ _ _).1 he').1
      · exact he'

end Replays

end Desk

open Desk

/-- Fills are never replace acknowledgements, so the replay of a restart keeps the orders it
starts from. -/
theorem fillFrame_replays : FillFrame Replays where
  refl := Replays.refl
  trans := Replays.trans
  books := fun hord hids _ => ⟨fun k => by rw [order?_congr hord], fun k o ho => ⟨o, by rw [order?_congr hord]; exact ho, rfl, rfl⟩,
    fun e he => hids ▸ he⟩
  fill := fun f _ he => Replays.applyEventCore (by unfold BrokerFill.event; split <;> simp) he

theorem Store.eq_of_mappings {s : Store} (hnd : (s.mappings.map (·.internalId)).Nodup) {k b b' : String}
    (hb : { internalId := k, brokerId := b } ∈ s.mappings) (hb' : { internalId := k, brokerId := b' } ∈ s.mappings) :
    b = b' := by
  have h := List.inj_on_of_nodup_map hnd hb hb' rfl
  cases h
  rfl

/-- The replay of a restart runs over the orders rebuilt from the store, and keeps them. -/
theorem replays_restart (c : DeskConfig) (w : World) :
    Replays ((Desk.boot c w.2.store.arm).restoreOrders w.2.store) (restart c w).2.1 :=
  fillFrame_replays.restore _ w.2

section Restart

variable {w : World} (hA : w.1.Mapped w.2.store) (c : DeskConfig)
include hA

/-- A restart tracks exactly the session's orders that are not terminal. -/
theorem Desk.Mapped.restart_tracked (k : String) :
    ((restart c w).2.1.order? k).isSome ↔ ∃ o, w.1.order? k = some o ∧ o.state.terminal = false := by
  rw [(replays_restart c w).tracked k, (hA.restoreOrders_spec c w.2.store.arm).2.1 k, hA.live k]

/-- Each order of a restart has the session order's symbol, and as its total the quantity of the
intent in its row. -/
theorem Desk.Mapped.restart_order {k : String} {o' : Order} (ho' : (restart c w).2.1.order? k = some o') :
    ∃ o r i, w.1.order? k = some o ∧ w.2.store.row? k = some r ∧
      Intent.decode r.orderJson = some i ∧ o'.symbol = o.symbol ∧ o'.totalQty = i.quantity := by
  obtain ⟨-, htracked₀, hrebuilt₀⟩ := hA.restoreOrders_spec c w.2.store.arm
  have hR := replays_restart c w
  obtain ⟨o₀, ho₀⟩ := Option.isSome_iff_exists.1 ((hR.tracked k).1 (by rw [ho']; rfl))
  obtain ⟨o'', ho'', hsym, htot⟩ := hR.orders k o₀ ho₀
  rw [ho'] at ho''
  cases ho''
  obtain ⟨r, i, hr, -, hi, hnew⟩ := hrebuilt₀ k o₀ ho₀
  rw [id_of_order? ho₀] at hr
  obtain ⟨bid, hbid⟩ := (htracked₀ k).1 (by rw [ho₀]; rfl)
  obtain ⟨o, ho, -⟩ := (hA.live k).1 ⟨bid, hbid⟩
  obtain ⟨r', hr', -, i', hi', hsym'⟩ := hA.acked k o ho
  rw [hr] at hr'
  cases hr'
  rw [hi] at hi'
  cases hi'
  refine ⟨o, r, i, ho, hr, hi, ?_, ?_⟩
  · rw [hsym, hnew, hsym']
    rfl
  · rw [htot, hnew]
    rfl

/-- A restart keeps the session's broker id of exactly the orders it leaves not terminal. -/
theorem Desk.Mapped.restart_brokerId? (k bid : String) :
    (restart c w).2.1.ids.brokerId? k = some bid ↔
      w.1.ids.brokerId? k = some bid ∧ ∃ o', (restart c w).2.1.order? k = some o' ∧ o'.state.terminal = false := by
  have hB := restart_mapped c hA
  have hR := replays_restart c w
  have hload : ∀ e, e ∈ ((Desk.boot c w.2.store.arm).restoreOrders w.2.store).ids.entries ↔ e ∈ w.2.store.mappings := by
    intro e
    rw [(hA.restoreOrders_spec c w.2.store.arm).1,
      IdMap.mem_load IdMap.sorted_empty hA.once (fun e he => absurd he List.not_mem_nil) e]
    exact ⟨fun he => he.resolve_left List.not_mem_nil, .inr⟩
  rw [IdMap.brokerId?_eq_some hB.sorted, IdMap.brokerId?_eq_some hA.sorted, hA.same]
  constructor
  · intro hb
    exact ⟨(hload _).1 (hR.ids _ hb), (hB.live k).1 ⟨bid, (hB.same _).1 hb⟩⟩
  · rintro ⟨hbid, hlive⟩
    obtain ⟨bid', hbid'⟩ := (hB.live k).2 hlive
    have hmem := (hB.same _).2 hbid'
    have hold := (hload _).1 (hR.ids _ hmem)
    rw [Store.eq_of_mappings hA.once hbid hold]
    exact hmem

end Restart

/-- **A restart rebuilds the order book.** Restart a desk, with any configuration, over the store
and broker of any world it can reach. The new desk tracks exactly the orders the old one tracked
and that are not terminal. Each has the old order's symbol, and as its total the quantity of the
intent in its outbox row. The new id map agrees with the store's mappings after the restart, and
holds exactly the old map's broker ids of the orders it leaves not terminal. -/
theorem restart_rebuilds_orders {w : World} (hw : Reachable w) (c : DeskConfig) :
    let b := (restart c w).2
    (∀ k, (b.1.order? k).isSome ↔ ∃ o, w.1.order? k = some o ∧ o.state.terminal = false) ∧
    (∀ k o', b.1.order? k = some o' → ∃ o r i, w.1.order? k = some o ∧ w.2.store.row? k = some r ∧
      Intent.decode r.orderJson = some i ∧ o'.symbol = o.symbol ∧ o'.totalQty = i.quantity) ∧
    (∀ k bid, b.1.ids.brokerId? k = some bid ↔
      w.1.ids.brokerId? k = some bid ∧ ∃ o', b.1.order? k = some o' ∧ o'.state.terminal = false) ∧
    ∀ k bid, b.1.ids.brokerId? k = some bid ↔ { internalId := k, brokerId := bid } ∈ b.2.store.mappings := by
  intro b
  have hA := hw.mapped.1
  have hB : b.1.Mapped b.2.store := restart_mapped c hA
  refine ⟨hA.restart_tracked c, fun k o' ho' => hA.restart_order c ho', hA.restart_brokerId? c, fun k bid => ?_⟩
  rw [IdMap.brokerId?_eq_some hB.sorted]
  exact hB.same _

/-- A session that queues an order, dispatches it, and replaces it for fifteen, with the
replace acknowledged; then a restart with the same configuration. -/
theorem restart_rebuilds_orders_after_replace :
    let c : DeskConfig := { runId := "run", initialCash := 1000, fresh := 0, maxGross := 0, maxPerSymbol := 0 }
    let w := Action.run (DeskSetup.start { config := c, marks := [("ABC", 1)] })
      [.enqueue { key := "k", symbol := "ABC", side := .buy, quantity := 10 }, .dispatch "d" 1, .replace "k" 15 none "",
        .event "k" ⟨.replaceAck, 0⟩ "r"]
    Reachable w ∧
    let b := (restart c w).2
    (∀ k, (b.1.order? k).isSome ↔ ∃ o, w.1.order? k = some o ∧ o.state.terminal = false) ∧
    (∀ k o', b.1.order? k = some o' → ∃ o r i, w.1.order? k = some o ∧ w.2.store.row? k = some r ∧
      Intent.decode r.orderJson = some i ∧ o'.symbol = o.symbol ∧ o'.totalQty = i.quantity) ∧
    (∀ k bid, b.1.ids.brokerId? k = some bid ↔
      w.1.ids.brokerId? k = some bid ∧ ∃ o', b.1.order? k = some o' ∧ o'.state.terminal = false) ∧
    ∀ k bid, b.1.ids.brokerId? k = some bid ↔ { internalId := k, brokerId := bid } ∈ b.2.store.mappings := by
  intro c w
  have hw : Reachable w := (Reachable.start _).run _
  exact ⟨hw, restart_rebuilds_orders hw c⟩

/-- A restart does not keep what a replace made of an order. After a replace from ten to fifteen,
acknowledged, the restarted desk tracks the order with its intent's ten. With a fill of twelve
taken in before the restart, the session's order is partially filled, twelve of fifteen, and
mapped; the replay fills the rebuilt order, ten of ten, and forgets its broker id. -/
theorem restart_forgets_replaced_quantity :
    let c : DeskConfig := { runId := "run", initialCash := 1000, fresh := 0, maxGross := 0, maxPerSymbol := 0 }
    let s : DeskSetup := { config := c, marks := [("ABC", 1)] }
    let replaced := Action.run s.start [.enqueue { key := "k", symbol := "ABC", side := .buy, quantity := 10 },
      .dispatch "d" 1, .replace "k" 15 none "", .event "k" ⟨.replaceAck, 0⟩ "r"]
    let filled := Action.run replaced
      [.ingest [{ messageId := "m", seq := 1, orderId := "k", symbol := "ABC", side := .buy, qty := 12, price := 1 }]]
    (replaced.1.order? "k").map (·.totalQty) = some 15 ∧
    (restart c replaced).1.toBool = true ∧ ((restart c replaced).2.1.order? "k").map (·.totalQty) = some 10 ∧
    (filled.1.order? "k").map (fun o => (o.state, o.filledQty, o.totalQty)) = some (.partiallyFilled, 12, 15) ∧
    (filled.1.ids.brokerId? "k").isSome ∧
    (restart c filled).1.toBool = true ∧
    ((restart c filled).2.1.order? "k").map (fun o => (o.state, o.filledQty, o.totalQty)) = some (.filled, 10, 10) ∧
    (restart c filled).2.1.ids.brokerId? "k" = none := by
  decide +kernel

end TradeDesk
