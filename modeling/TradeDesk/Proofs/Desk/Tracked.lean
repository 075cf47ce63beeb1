import TradeDesk.Proofs.Gateway.IdMap
import TradeDesk.Proofs.Store.Inbox
import TradeDesk.Proofs.Store.Outbox
import TradeDesk.Desk.Fills
import TradeDesk.Proofs.Order.Lifecycle
/-!
# Broker ids of the tracked orders

The desk registers a broker id in memory and persists it in the store in the same step, and drops
both in the step an order becomes terminal. `Desk.Mapped` is what that keeps: the id map, kept in
order, holds the same pairs as the persisted mappings, which name each id once; an id is mapped
exactly when its order is tracked and not terminal; and every tracked order has an acked outbox
row whose intent decodes, which is what a restart rebuilds it from.

The store moves under the desk in many ways that do not matter to it: rows are queued, claimed,
released, sent or failed, and the inbox fills. `Store.KeepsAcked` is a change that keeps the
mappings and every acked row, and it keeps the invariant (`Mapped.of_keepsAcked`). The steps that
do matter are three. An order event puts the order after it in place, and when it made the order
terminal the id is deregistered and its mapping removed (`Mapped.applyEventCore_ok`); no terminal
order ever leaves its state, and a request never makes one terminal. Completing a submission at a
row that is claimed or sent registers and persists the broker id and starts tracking the order
(`Mapped.complete`): a tracked order's row is acked, so the order is new.
-/

namespace TradeDesk

/-! ### Orders -/

namespace Order

/-- A cancel or replace request never makes an order terminal. -/
theorem terminal_apply_request {o o' : Order} {e : Event} (hk : e.kind = .cancelRequest ∨ e.kind = .replaceRequest)
    (h : o.apply e "" = .ok o') : o'.state.terminal = false := by
  unfold apply at h
  simp only [ne_eq, not_true_eq_false, false_and, if_false] at h
  split at h
  · cases h
  · rename_i o₁ hs
    cases h
    unfold step at hs
    rcases hk with hk | hk <;> rw [hk] at hs <;> dsimp only at hs <;> split at hs <;> cases hs <;> rfl

end Order

namespace Desk

theorem find?_insertOrder (o : Order) (os : List Order) (k : String) :
    (insertOrder o os).find? (·.id = k) = if o.id = k then some o else os.find? (·.id = k) := by
  induction os with
  | nil => by_cases h : o.id = k <;> simp [insertOrder, h]
  | cons p ps ih =>
    unfold insertOrder
    split
    · rename_i heq
      by_cases h : o.id = k
      · simp [h]
      · simp [h, ← heq]
    · split
      · by_cases h : o.id = k <;> simp [h]
      · rename_i hne _
        by_cases hp : p.id = k
        · have h : ¬ o.id = k := fun h => hne (h.trans hp.symm)
          simp [hp, h]
        · simp [hp, ih]

theorem order?_putOrder (d : Desk) (o : Order) (k : String) :
    (d.putOrder o).order? k = if o.id = k then some o else d.order? k :=
  find?_insertOrder o d.orders k

theorem id_of_order? {d : Desk} {k : String} {o : Order} (h : d.order? k = some o) : o.id = k := by
  simpa using List.find?_some h

theorem order?_congr {d d' : Desk} (h : d'.orders = d.orders) (k : String) : d'.order? k = d.order? k := by
  simp only [order?, h]

/-- An event the desk refuses leaves its ids, orders and pending replaces as they were. -/
theorem applyEventCore_error {d d' : Desk} {k : String} {ev : Event} {eventId : String} {f : Fault}
    (h : d.applyEventCore k ev eventId = (.error f, d')) :
    d'.ids = d.ids ∧ d'.orders = d.orders ∧ d'.replacing = d.replacing := by
  unfold applyEventCore at h
  split at h
  · cases h; exact ⟨rfl, rfl, rfl⟩
  · split at h
    · cases h; exact ⟨rfl, rfl, rfl⟩
    · split at h
      · cases h; exact ⟨rfl, rfl, rfl⟩
      · cases h

/-- An event the desk takes puts the order after it in place; it reports the order terminal, and
deregisters its id, exactly when the event made it terminal. -/
theorem applyEventCore_ok {d d' : Desk} {k : String} {ev : Event} {eventId : String} {o' : Order} {t : Bool}
    (h : d.applyEventCore k ev eventId = (.ok (o', t), d')) :
    ∃ o o₁, d.order? k = some o ∧ o.apply ev eventId = .ok o₁ ∧ o'.state = o₁.state ∧ o'.id = k ∧
      o'.symbol = o.symbol ∧ t = (o'.state.terminal && !o.state.terminal) ∧ d'.orders = insertOrder o' d.orders ∧
      d'.ids = if t then d.ids.deregister k else d.ids := by
  unfold applyEventCore at h
  split at h
  · cases h
  · rename_i o ho
    split at h
    · cases h
    · split at h
      · cases h
      · rename_i o₁ h₁
        simp only [Prod.mk.injEq, Except.ok.injEq] at h
        obtain ⟨⟨ho', ht⟩, hd⟩ := h
        -- a replace acknowledgement may change the quantity, never the state or the id
        have hsame : o'.state = o₁.state ∧ o'.id = o₁.id ∧ o'.symbol = o₁.symbol := by
          rw [← ho']
          split
          · split
            · split <;> exact ⟨rfl, rfl, rfl⟩
            · exact ⟨rfl, rfl, rfl⟩
          · exact ⟨rfl, rfl, rfl⟩
        rw [ho'] at ht hd
        refine ⟨o, o₁, ho, h₁, hsame.1, ?_, hsame.2.2.trans (Order.apply_keeps h₁).2.1, ht.symm, ?_, ?_⟩
        · rw [hsame.2.1, (Order.apply_keeps h₁).1, id_of_order? ho]
        · rw [← hd]
          simp only [apply_ite Desk.orders, Desk.putOrder, ite_self]
        · rw [← hd, ← ht]
          simp only [apply_ite Desk.ids, Desk.putOrder, ite_self]

end Desk

/-! ### Changes of the store the invariant does not see -/

namespace Store

/-- A change of the store that keeps the broker mappings and every acked row as it is. -/
structure KeepsAcked (s s' : Store) : Prop where
  mappings : s'.mappings = s.mappings
  acked : ∀ k r, s.row? k = some r → r.status = .acked → s'.row? k = some r

theorem KeepsAcked.refl (s : Store) : KeepsAcked s s := ⟨rfl, fun _ _ h _ => h⟩

theorem KeepsAcked.trans {s s' s'' : Store} (h₁ : KeepsAcked s s') (h₂ : KeepsAcked s' s'') : KeepsAcked s s'' :=
  ⟨h₂.mappings.trans h₁.mappings, fun k r hr ha => h₂.acked k r (h₁.acked k r hr ha) ha⟩

theorem keepsAcked_of_outbox_eq {s s' : Store} (hm : s'.mappings = s.mappings) (ho : s'.outbox = s.outbox) :
    KeepsAcked s s' :=
  ⟨hm, fun k _ hr _ => (row?_congr ho k).trans hr⟩

theorem mappings_transition (s : Store) (key : String) (change : OutboxRow → Option OutboxRow) :
    (s.transition key change).2.mappings = s.mappings := by
  rw [transition_eq_with]

/-- A transition that leaves acked rows alone, or acked, keeps them. -/
theorem keepsAcked_transition {s : Store} {key : String} {change : OutboxRow → Option OutboxRow}
    (hc : KeepsKey change) (hack : ∀ r, r.status = .acked → change r = none ∨ change r = some r) :
    KeepsAcked s (s.transition key change).2 := by
  refine ⟨mappings_transition s key change, fun k r hr ha => ?_⟩
  by_cases hk : k = key
  · subst hk
    rcases transition_cases s k change with h | ⟨r₀, r', hr₀, hr', -⟩
    · rw [h]; exact hr
    · rw [hr] at hr₀
      cases hr₀
      rcases hack r ha with hn | hs
      · rw [hn] at hr'; cases hr'
      · exact row?_transition_self hc hr hs
  · rw [row?_transition_of_ne hc hk]
    exact hr

theorem acked_eq {r : OutboxRow} (ha : r.status = .acked) : { r with status := .acked } = r := by
  cases r; cases ha; rfl

theorem keepsAcked_markAcked (s : Store) (key : String) : KeepsAcked s (s.markAcked key).2 :=
  keepsAcked_transition keepsKey_markAcked fun r ha => .inr (by rw [acked_eq ha])

theorem keepsAcked_release (s : Store) (key : String) : KeepsAcked s (s.release key).2 :=
  keepsAcked_transition keepsKey_release fun r ha => .inl (by rw [if_neg (by rw [ha]; decide)])

theorem keepsAcked_markFailed (s : Store) (key : String) : KeepsAcked s (s.markFailed key).2 :=
  keepsAcked_transition keepsKey_markFailed fun r ha => .inl (by rw [if_neg (by rw [ha]; decide)])

theorem keepsAcked_claimBatch (s : Store) (now : Instant) (limit : Int) (claimant : String) :
    KeepsAcked s (s.claimBatch now limit claimant).2 := by
  refine ⟨by rw [(s.claimBatch_spec now limit claimant).1], fun k r hr ha => ?_⟩
  exact row?_claimBatch hr (by rw [ha]; decide)

theorem keepsAcked_enqueue {s s' : Store} {now : Instant} {runId key json : String} {b : Bool}
    (h : s.enqueue now runId key json = .ok (b, s')) : KeepsAcked s s' := by
  unfold enqueue at h
  split at h
  · cases h
  · split at h
    · cases h; exact KeepsAcked.refl s
    · cases h
      refine ⟨rfl, fun k r hr _ => ?_⟩
      simp only [row?, List.find?_append] at hr ⊢
      rw [hr]
      rfl

theorem keepsAcked_markAppliedAll (s : Store) (now : Instant) (ids : List String) :
    KeepsAcked s (s.markAppliedAll now ids) := by
  refine keepsAcked_of_outbox_eq ?_ (outbox_markAppliedAll s now ids)
  induction ids generalizing s with
  | nil => rfl
  | cons id rest ih =>
    rw [markAppliedAll_cons, ih]
    unfold markAppliedOrSame markApplied
    split
    · rename_i s' h
      split at h
      · cases h
      · cases h; rfl
    · rfl

theorem keepsAcked_discardAll (s : Store) (ids : List String) : KeepsAcked s (ids.foldl discard s) := by
  induction ids generalizing s with
  | nil => exact KeepsAcked.refl s
  | cons id rest ih =>
    refine KeepsAcked.trans (keepsAcked_of_outbox_eq ?_ (outbox_discard s id)) (ih _)
    unfold discard
    split
    · split <;> rfl
    · rfl

theorem keepsAcked_insertInbox (s : Store) (now : Instant) (runId messageId json : String) :
    KeepsAcked s (s.insertInbox now runId messageId json).2 :=
  keepsAcked_of_outbox_eq (by unfold insertInbox; split <;> rfl) (outbox_insertInbox _ _ _ _ _)

theorem row?_upsertMapping (s : Store) (internalId brokerId k : String) :
    (s.upsertMapping internalId brokerId).row? k = s.row? k :=
  row?_congr (outbox_upsertMapping s internalId brokerId) k

theorem row?_removeMapping (s : Store) (internalId k : String) : (s.removeMapping internalId).row? k = s.row? k :=
  row?_congr (outbox_removeMapping s internalId) k

theorem mappings_markAcked (s : Store) (key : String) : (s.markAcked key).2.mappings = s.mappings :=
  mappings_transition s key _

theorem mappings_markSent (s : Store) (now : Instant) (key : String) : (s.markSent now key).2.mappings = s.mappings :=
  mappings_transition s key _

theorem row?_markSent_orderJson {s : Store} (now : Instant) {key : String} {r : OutboxRow} (hr : s.row? key = some r) :
    ∃ r', (s.markSent now key).2.row? key = some r' ∧ r'.orderJson = r.orderJson := by
  by_cases hc : r.status = .claimed
  · exact ⟨_, row?_transition_self (keepsKey_markSent now) hr (if_pos hc), rfl⟩
  · refine ⟨r, ?_, rfl⟩
    rcases transition_cases s key (fun r =>
        if r.status = .claimed then some { r with status := .sent, sentAt := r.sentAt <|> some now } else none)
      with h | ⟨r₀, r', hr₀, hr', -⟩
    · show (s.transition key _).2.row? key = some r
      rw [h]; exact hr
    · rw [hr] at hr₀
      cases hr₀
      rw [if_neg hc] at hr'
      cases hr'

end Store

/-! ### The invariant -/

namespace Desk

/-- The desk and the store agree on the broker ids of the orders. -/
structure Mapped (d : Desk) (s : Store) : Prop where
  /-- The id map is kept in order, one entry per id. -/
  sorted : d.ids.Sorted
  /-- The id map and the persisted mappings hold the same pairs. -/
  same : ∀ e, e ∈ d.ids.entries ↔ e ∈ s.mappings
  /-- The persisted mappings name each id once. -/
  once : (s.mappings.map (·.internalId)).Nodup
  /-- An id is mapped exactly when its order is tracked and not terminal. -/
  live : ∀ k, (∃ b, { internalId := k, brokerId := b } ∈ s.mappings) ↔
    ∃ o, d.order? k = some o ∧ o.state.terminal = false
  /-- A tracked order has an acked outbox row, whose intent decodes and has the order's symbol. -/
  acked : ∀ k o, d.order? k = some o →
    ∃ r, s.row? k = some r ∧ r.status = .acked ∧ ∃ i, Intent.decode r.orderJson = some i ∧ o.symbol = i.symbol

theorem mapped_empty {d : Desk} {s : Store} (hids : d.ids = {}) (hord : d.orders = []) (hm : s.mappings = []) :
    d.Mapped s where
  sorted := by rw [hids]; exact IdMap.sorted_empty
  same := fun e => by rw [hids, hm]
  once := by rw [hm]; exact List.nodup_nil
  live := fun k => by
    rw [hm]
    simp [order?, hord]
  acked := fun k o ho => by simp [order?, hord] at ho

/-- Changes that keep the ids, the orders, the mappings and the acked rows keep the invariant. -/
theorem Mapped.of_keepsAcked {d d' : Desk} {s s' : Store} (h : d.Mapped s) (hids : d'.ids = d.ids)
    (hord : d'.orders = d.orders) (hs : s.KeepsAcked s') : d'.Mapped s' where
  sorted := hids ▸ h.sorted
  same := fun e => by rw [hids, hs.mappings]; exact h.same e
  once := by rw [hs.mappings]; exact h.once
  live := fun k => by rw [hs.mappings, order?_congr hord]; exact h.live k
  acked := fun k o ho => by
    rw [order?_congr hord] at ho
    obtain ⟨r, hr, ha, hdec⟩ := h.acked k o ho
    exact ⟨r, hs.acked k r hr ha, ha, hdec⟩

/-- A mapped id has a tracked order that is not terminal, whose row is acked. -/
theorem Mapped.untracked_of_row {d : Desk} {s : Store} (h : d.Mapped s) {k : String} {r : OutboxRow}
    (hr : s.row? k = some r) (hs : r.status ≠ .acked) : d.order? k = none := by
  cases ho : d.order? k with
  | none => rfl
  | some o =>
    obtain ⟨r', hr', ha, -⟩ := h.acked k o ho
    rw [hr] at hr'
    cases hr'
    exact absurd ha hs

/-- **An order event keeps the broker ids.** The order after the event takes its place; when the
event made it terminal its id is deregistered, its mapping removed and its row acked. -/
theorem Mapped.applyEventCore_ok {d d' : Desk} {v : Venue} {k : String} {ev : Event} {eventId : String}
    {o' : Order} {t : Bool} (h : d.Mapped v.store) (he : d.applyEventCore k ev eventId = (.ok (o', t), d')) :
    d'.Mapped (if t then v.forget k else v).store := by
  obtain ⟨o, o₁, ho, h₁, hst, hid, hsym, ht, hord, hids⟩ := Desk.applyEventCore_ok he
  have horder : ∀ k', d'.order? k' = if k = k' then some o' else d.order? k' := fun k' => by
    rw [← hid, order?, hord]
    exact find?_insertOrder o' d.orders k'
  have hsrc : ∀ k' o'', d'.order? k' = some o'' → ∃ o₀, d.order? k' = some o₀ ∧ o''.symbol = o₀.symbol := by
    intro k' o'' ho''
    rw [horder k'] at ho''
    by_cases hk : k = k'
    · subst hk
      rw [if_pos rfl] at ho''
      cases ho''
      exact ⟨o, ho, hsym⟩
    · rw [if_neg hk] at ho''
      exact ⟨o'', ho'', rfl⟩
  have hkeep : o.state.terminal = true → o'.state.terminal = true := fun hto => by
    rw [hst, (Order.apply_of_terminal hto h₁).1]; exact hto
  cases t with
  | true =>
    have hto' : o'.state.terminal = true := by
      have h' := ht.symm
      rw [Bool.and_eq_true] at h'
      exact h'.1
    simp only [if_true] at hids ⊢
    have hm : (v.forget k).store.mappings = (v.store.removeMapping k).mappings :=
      Store.mappings_markAcked _ _
    have hrow : (v.store.removeMapping k).KeepsAcked (v.forget k).store := Store.keepsAcked_markAcked _ _
    refine ⟨hids ▸ h.sorted.deregister k, fun e => ?_, ?_, fun k' => ?_, fun k' o'' ho'' => ?_⟩
    · rw [hids, hm, IdMap.mem_deregister, Store.mem_removeMapping, h.same e]
    · rw [hm]; exact Store.nodup_removeMapping h.once k
    · rw [hm, horder k']
      by_cases hk : k = k'
      · subst hk
        simp [Store.mem_removeMapping, hto']
      · simp only [Store.mem_removeMapping, if_neg hk]
        rw [← h.live k']
        exact exists_congr fun b => ⟨fun hb => hb.1, fun hb => ⟨hb, Ne.symm hk⟩⟩
    · obtain ⟨o₀, ho₀, hs₀⟩ := hsrc k' o'' ho''
      obtain ⟨r, hr, ha, i, hi, hs⟩ := h.acked k' o₀ ho₀
      exact ⟨r, hrow.acked k' r (by rw [Store.row?_removeMapping]; exact hr) ha, ha, i, hi, hs₀.trans hs⟩
  | false =>
    simp only [Bool.false_eq_true, if_false] at hids ⊢
    refine ⟨hids ▸ h.sorted, fun e => by rw [hids]; exact h.same e, h.once, fun k' => ?_, fun k' o'' ho'' => ?_⟩
    · rw [horder k']
      by_cases hk : k = k'
      · subst hk
        rw [h.live k, ho, if_pos rfl]
        have hiff : o.state.terminal = false ↔ o'.state.terminal = false := by
          cases hto : o.state.terminal with
          | false =>
            cases hto' : o'.state.terminal with
            | false => exact Iff.rfl
            | true => rw [hto, hto'] at ht; cases ht
          | true => rw [hkeep hto]
        simpa using hiff
      · rw [if_neg hk]; exact h.live k'
    · obtain ⟨o₀, ho₀, hs₀⟩ := hsrc k' o'' ho''
      obtain ⟨r, hr, ha, i, hi, hs⟩ := h.acked k' o₀ ho₀
      exact ⟨r, hr, ha, i, hi, hs₀.trans hs⟩

theorem Mapped.applyEventCore_error {d d' : Desk} {s : Store} {k : String} {ev : Event} {eventId : String}
    {f : Fault} (h : d.Mapped s) (he : d.applyEventCore k ev eventId = (.error f, d')) : d'.Mapped s :=
  h.of_keepsAcked (Desk.applyEventCore_error he).1 (Desk.applyEventCore_error he).2.1 (Store.KeepsAcked.refl s)

/-- **Completing a submission keeps the broker ids.** At a row that is claimed or sent, whose intent
decodes with the symbol submitted, the desk registers and persists the broker id and starts
tracking the order: a tracked order's row is acked, so this one was not tracked, and its row is
acked after. -/
theorem Mapped.complete {d : Desk} {v : Venue} {intent : Intent} {ack : BrokerAck} {r : OutboxRow}
    (h : d.Mapped v.store) (hr : v.store.row? intent.key = some r) (hs : r.status = .claimed ∨ r.status = .sent)
    (hdec : ∃ i, Intent.decode r.orderJson = some i ∧ intent.symbol = i.symbol) :
    (TradeDesk.complete onSubmitted intent ack (d, v)).2.1.Mapped (TradeDesk.complete onSubmitted intent ack (d, v)).2.2.store := by
  have hna : r.status ≠ .acked := by rcases hs with hs | hs <;> rw [hs] <;> decide
  have hnew : d.order? intent.key = none := h.untracked_of_row hr hna
  have hunmapped : ∀ b, { internalId := intent.key, brokerId := b } ∉ v.store.mappings := fun b hb => by
    obtain ⟨o, ho, -⟩ := (h.live intent.key).1 ⟨b, hb⟩
    rw [hnew] at ho; cases ho
  set s₁ := (v.store.markSent v.now intent.key).2
  set s₂ := s₁.upsertMapping intent.key ack.brokerId
  have hm : (s₂.markAcked intent.key).2.mappings = s₂.mappings := Store.mappings_markAcked _ _
  have hm₁ : s₁.mappings = v.store.mappings := Store.mappings_markSent _ _ _
  set d₁ : Desk := { d with ids := d.ids.register intent.key ack.brokerId }
  have hnew₁ : d₁.order? intent.key = none := hnew
  have horder : ∀ k, (d₁.putOrder (Order.new intent.key intent.symbol intent.quantity)).order? k =
      if intent.key = k then some (Order.new intent.key intent.symbol intent.quantity) else d.order? k :=
    fun k => order?_putOrder d₁ _ k
  show (if (d₁.order? intent.key).isSome then d₁ else d₁.putOrder _).Mapped (s₂.markAcked intent.key).2
  rw [hnew₁, Option.isSome_none, if_neg Bool.false_ne_true]
  refine ⟨h.sorted.register _ _, fun e => ?_, ?_, fun k => ?_, fun k o ho => ?_⟩
  · show e ∈ (d.ids.register _ _).entries ↔ _
    rw [hm, Store.mem_upsertMapping, hm₁, IdMap.mem_register h.sorted, h.same e]
  · rw [hm]; exact Store.nodup_upsertMapping (hm₁ ▸ h.once) _ _
  · rw [hm, horder k]
    by_cases hk : intent.key = k
    · subst hk
      simp only [if_true, s₂, Store.mem_upsertMapping]
      exact ⟨fun _ => ⟨_, rfl, rfl⟩, fun _ => ⟨ack.brokerId, .inl rfl⟩⟩
    · rw [if_neg hk, ← h.live k]
      simp only [s₂, Store.mem_upsertMapping, hm₁, Mapping.mk.injEq]
      exact exists_congr fun b => ⟨fun hb => (hb.resolve_left fun he => hk he.1.symm).1,
        fun hb => .inr ⟨hb, Ne.symm hk⟩⟩
  · rw [horder k] at ho
    by_cases hk : intent.key = k
    · subst hk
      rw [if_pos rfl] at ho
      cases ho
      obtain ⟨r₁, hr₁, hj⟩ := Store.row?_markSent_orderJson v.now hr
      have hr₂ : s₂.row? intent.key = some r₁ := (Store.row?_upsertMapping _ _ _ _).trans hr₁
      refine ⟨{ r₁ with status := .acked }, Store.row?_transition_self Store.keepsKey_markAcked hr₂ rfl, rfl, ?_⟩
      show ∃ i, Intent.decode r₁.orderJson = some i ∧ intent.symbol = i.symbol
      rw [hj]; exact hdec
    · rw [if_neg hk] at ho
      obtain ⟨r', hr', ha, hdec'⟩ := h.acked k o ho
      have hne : k ≠ intent.key := Ne.symm hk
      refine ⟨r', ?_, ha, hdec'⟩
      rw [Store.row?_markAcked_of_ne _ hne, Store.row?_upsertMapping, Store.row?_markSent_of_ne _ _ hne]
      exact hr'

end Desk

end TradeDesk
