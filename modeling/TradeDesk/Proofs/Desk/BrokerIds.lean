import TradeDesk.Proofs.Desk.Tracked
import TradeDesk.Proofs.Desk.NoDoubleSubmit
import TradeDesk.Desk.Action
/-!
# The desk and the store agree on broker ids

`Desk.Mapped` holds in every world a desk can reach: from the start of a session, through every
action, and across restarts over the store a session left. So the id map in memory and the
persisted mappings answer every lookup alike, name each id once, and map an id exactly while its
order is tracked and not terminal (`broker_ids_agree`).

Most actions leave the book of orders, the ids, the mappings and the acked rows alone
(`KeepsBook`). Order events, fills fed to the orders, cancels and replaces go through
`Desk.applyEventCore`, which forgets an order exactly when it makes it terminal; a request never
does. A replace that moves an order to a new broker id replaces a mapping the order already has:
the gateway asks the broker only with a mapped id. The passes complete rows found claimed or
sent, whose orders are not tracked yet. A restart rebuilds the id map from the mappings and
tracks a new order for each, which the acked rows of the tracked orders make possible.
-/

namespace TradeDesk

/-! ### Changes that keep the book -/

/-- A change of the world that leaves the tracked orders, the id map, the persisted mappings and
every acked row as they were. -/
structure KeepsBook (w w' : World) : Prop where
  ids : w'.1.ids = w.1.ids
  orders : w'.1.orders = w.1.orders
  store : w.2.store.KeepsAcked w'.2.store

namespace KeepsBook

theorem refl (w : World) : KeepsBook w w := ⟨rfl, rfl, Store.KeepsAcked.refl _⟩

theorem trans {w w' w'' : World} (h₁ : KeepsBook w w') (h₂ : KeepsBook w' w'') : KeepsBook w w'' :=
  ⟨h₂.ids.trans h₁.ids, h₂.orders.trans h₁.orders, h₁.store.trans h₂.store⟩

theorem of_store_eq {w w' : World} (hids : w'.1.ids = w.1.ids) (hord : w'.1.orders = w.1.orders)
    (hs : w'.2.store = w.2.store) : KeepsBook w w' :=
  ⟨hids, hord, by rw [hs]; exact Store.KeepsAcked.refl _⟩

end KeepsBook

theorem Desk.Mapped.keepsBook {w w' : World} (h : w.1.Mapped w.2.store) (hk : KeepsBook w w') :
    w'.1.Mapped w'.2.store :=
  h.of_keepsAcked hk.ids hk.orders hk.store

theorem keepsBook_arm (w : World) : KeepsBook w (arm w).2 := by
  unfold arm
  split
  split
  · exact KeepsBook.refl _
  · exact ⟨rfl, rfl, Store.keepsAcked_of_outbox_eq rfl rfl⟩

theorem keepsBook_disarm (w : World) (reason : String) : KeepsBook w (disarm w reason).2 := by
  unfold disarm
  split
  split
  · exact KeepsBook.refl _
  · exact ⟨rfl, rfl, Store.keepsAcked_of_outbox_eq rfl rfl⟩

theorem keepsBook_reconcile (w : World) : KeepsBook w (reconcile w).2 := by
  unfold reconcile
  split
  rename_i d v
  split
  · exact KeepsBook.of_store_eq rfl rfl rfl
  · dsimp only
    split
    · exact KeepsBook.of_store_eq rfl rfl rfl
    · have h₁ : KeepsBook (d, v) ({ d with guard := d.guard.record v.now false }, v) := KeepsBook.of_store_eq rfl rfl rfl
      exact h₁.trans (keepsBook_disarm _ _)

/-- Queuing an intent adds a row at most, under a key the outbox does not have. -/
theorem keepsBook_enqueueIntent (w : World) (i : Intent) : KeepsBook w (enqueueIntent w i).2 := by
  obtain ⟨hd, -, hs | ⟨now, runId, key, json, b, he⟩⟩ := enqueueIntent_cases w i
  · exact KeepsBook.of_store_eq (by rw [hd]) (by rw [hd]) hs
  · exact ⟨by rw [hd], by rw [hd], Store.keepsAcked_enqueue he⟩

theorem keepsBook_enqueueAll (intents : List Intent) (w : World) : KeepsBook w (enqueueAll w intents).2.2 := by
  induction intents generalizing w with
  | nil => exact KeepsBook.refl w
  | cons i rest ih =>
    have h₁ := keepsBook_enqueueIntent w i
    unfold enqueueAll
    split
    · rename_i f w' heq
      rw [heq] at h₁
      exact h₁
    · rename_i queued _ w' heq
      rw [heq] at h₁
      exact h₁.trans (ih w')

theorem Venue.store_fillAll (v : Venue) (fills : List FillOrder) : (v.fillAll fills).2.store = v.store := by
  induction fills generalizing v with
  | nil => rfl
  | cons f rest ih => exact ih _

/-! ### Order events -/

section Events

open Desk

/-- A cancel or replace request the desk takes leaves the order as far from terminal as it was. -/
theorem Desk.Mapped.applyEventCore_request {d d' : Desk} {v : Venue} {k : String} {ev : Event} {o' : Order}
    {t : Bool} (h : d.Mapped v.store) (hk : ev.kind = .cancelRequest ∨ ev.kind = .replaceRequest)
    (he : d.applyEventCore k ev "" = (.ok (o', t), d')) : d'.Mapped v.store := by
  obtain ⟨o, o₁, -, h₁, hst, -, -, ht, -, -⟩ := Desk.applyEventCore_ok he
  have hf : t = false := by
    rw [ht, hst, Order.terminal_apply_request hk h₁, Bool.false_and]
  have h' := h.applyEventCore_ok he
  rw [hf, if_neg Bool.false_ne_true] at h'
  exact h'

theorem applyEvent_mapped {d : Desk} {v : Venue} (h : d.Mapped v.store) (orderId : String) (ev : Event)
    (eventId : String) :
    (applyEvent (d, v) orderId ev eventId).2.1.Mapped (applyEvent (d, v) orderId ev eventId).2.2.store := by
  unfold applyEvent
  dsimp only
  generalize hA : d.applyEventCore orderId ev eventId = A
  obtain ⟨rA, dA⟩ := A
  cases rA with
  | error f => exact h.applyEventCore_error hA
  | ok p =>
    obtain ⟨o, t⟩ := p
    exact h.applyEventCore_ok hA

/-- Fill events fed to the orders keep the invariant, each order that closed forgotten. -/
theorem feedFills_mapped (fs : List BrokerFill) :
    ∀ (d : Desk) (v : Venue), d.Mapped v.store →
      (d.feedFills fs).2.Mapped ((d.feedFills fs).1.foldl Venue.forget v).store := by
  induction fs with
  | nil => intro d v h; exact h
  | cons f rest ih =>
    intro d v h
    unfold Desk.feedFills
    split
    · exact ih d v h
    · generalize hA : d.applyEventCore f.orderId f.event f.messageId = A
      obtain ⟨rA, dA⟩ := A
      cases rA with
      | error e => exact ih dA v (h.applyEventCore_error hA)
      | ok p =>
        obtain ⟨o, t⟩ := p
        have h' := h.applyEventCore_ok hA
        cases t with
        | true =>
          exact ih dA (v.forget f.orderId) h'
        | false => exact ih dA v h'

end Events

/-! ### Cancels and replaces -/

/-- The id map the gateway gets for an order answers for the order as the desk's map does. -/
theorem Desk.brokerId?_mappingFor (d : Desk) (orderId : String) :
    (d.mappingFor orderId).brokerId? orderId = d.ids.brokerId? orderId := by
  unfold Desk.mappingFor
  split
  · rename_i b hb
    rw [hb]
    simp [IdMap.register, IdMap.brokerId?, IdMap.insertSorted]
  · rename_i hb
    rw [hb]
    rfl

/-- The gateway asks the broker to replace an order only under a broker id of the map it is given. -/
theorem Venue.isSome_of_replace_ok {v : Venue} {gs : Gates} {internalId : String} {ids : Option IdMap} {qty : Int64}
    {limit : Option Int64} {tif : String} {ack : BrokerAck} {v' : Venue}
    (h : v.replace gs internalId ids qty limit tif = (.ok ack, v')) : (ids.bind (·.brokerId? internalId)).isSome := by
  unfold replace at h
  split at h
  · cases h
  · split at h
    · cases h
    · rename_i b hb
      rw [hb]
      rfl

/-- Moving a mapped order to a new broker id, in memory and in the store, keeps the invariant. -/
theorem Desk.Mapped.register {d : Desk} {s : Store} (h : d.Mapped s) {k : String}
    (hk : ∃ b, { internalId := k, brokerId := b } ∈ s.mappings) (b' : String) :
    ({ d with ids := d.ids.register k b' } : Desk).Mapped (s.upsertMapping k b') where
  sorted := h.sorted.register k b'
  same := fun e => by
    show e ∈ (d.ids.register k b').entries ↔ _
    rw [IdMap.mem_register h.sorted, Store.mem_upsertMapping, h.same e]
  once := Store.nodup_upsertMapping h.once k b'
  live := fun k' => by
    show _ ↔ ∃ o, d.order? k' = some o ∧ _
    rw [← h.live k']
    by_cases hk' : k' = k
    · subst hk'
      exact ⟨fun _ => hk, fun _ => ⟨b', (Store.mem_upsertMapping _ _ _ _).2 (.inl rfl)⟩⟩
    · simp only [Store.mem_upsertMapping, Mapping.mk.injEq]
      exact exists_congr fun b => ⟨fun hb => (hb.resolve_left fun he => hk' he.1).1, fun hb => .inr ⟨hb, hk'⟩⟩
  acked := fun k' o ho => by
    obtain ⟨r, hr, ha, hdec⟩ := h.acked k' o ho
    exact ⟨r, (Store.row?_upsertMapping _ _ _ _).trans hr, ha, hdec⟩

theorem cancel_mapped {d : Desk} {v : Venue} (h : d.Mapped v.store) (orderId : String) :
    (cancel (d, v) orderId).2.2.1.Mapped (cancel (d, v) orderId).2.2.2.store := by
  unfold cancel
  dsimp only
  split
  · exact h
  · split
    · exact h
    · have hs := (v.cancel_spec (d.gates v.now) orderId (some (d.mappingFor orderId))).1
      split
      · rename_i f v' heq
        rw [heq] at hs
        exact hs ▸ h
      · rename_i ack v' heq
        rw [heq] at hs
        have hv : d.Mapped v'.store := hs ▸ h
        generalize hA : d.applyEventCore orderId ⟨.cancelRequest, 0⟩ "" = A
        obtain ⟨rA, dA⟩ := A
        cases rA with
        | error f => exact hv.applyEventCore_error hA
        | ok p =>
          obtain ⟨o, t⟩ := p
          have hvA : dA.Mapped v'.store := hv.applyEventCore_request (.inl rfl) hA
          by_cases hc : ack.status = "canceled"
          · simp only [hc, if_true]
            generalize hB : dA.applyEventCore orderId ⟨.cancelAck, 0⟩ ("cancel-ack-" ++ ack.brokerId) = B
            obtain ⟨rB, dB⟩ := B
            cases rB with
            | error f => exact hvA.applyEventCore_error hB
            | ok q =>
              obtain ⟨o', t'⟩ := q
              exact hvA.applyEventCore_ok hB
          · simp only [hc, if_false]
            exact hvA

theorem replace_mapped {d : Desk} {v : Venue} (h : d.Mapped v.store) (orderId : String) (qty : Int64)
    (limit : Option Int64) (tif : String) :
    (replace (d, v) orderId qty limit tif).2.2.1.Mapped (replace (d, v) orderId qty limit tif).2.2.2.store := by
  unfold replace
  dsimp only
  split
  · exact h
  · split
    · exact h
    · have hs := (v.replace_spec (d.gates v.now) orderId (some (d.mappingFor orderId)) qty limit tif).1
      split
      · rename_i f v' heq
        rw [heq] at hs
        exact hs ▸ h
      · rename_i ack v' heq
        have hmapped : ∃ b, { internalId := orderId, brokerId := b } ∈ v'.store.mappings := by
          have hsome := Venue.isSome_of_replace_ok heq
          simp only [Option.bind_some, Desk.brokerId?_mappingFor] at hsome
          obtain ⟨b, hb⟩ := (IdMap.isSome_brokerId? h.sorted orderId).1 hsome
          rw [heq] at hs
          exact ⟨b, hs ▸ (h.same _).1 hb⟩
        rw [heq] at hs
        have hv : d.Mapped v'.store := hs ▸ h
        have hrecord : ∀ (d₁ : Desk) (v₁ : Venue), d₁.Mapped v₁.store → ∀ rA dA,
            d₁.applyEventCore orderId ⟨.replaceRequest, 0⟩ "" = (rA, dA) →
              dA.Mapped v₁.store ∧ ∀ r, ({ dA with replacing := r } : Desk).Mapped v₁.store := by
          intro d₁ v₁ h₁ rA dA hA
          have hA' : dA.Mapped v₁.store := by
            cases rA with
            | error f => exact h₁.applyEventCore_error hA
            | ok p => exact h₁.applyEventCore_request (.inr rfl) hA
          exact ⟨hA', fun _ => hA'.of_keepsAcked rfl rfl (Store.KeepsAcked.refl _)⟩
        by_cases hmoved : ack.brokerId ≠ "" ∧ ack.brokerId ≠ ((d.mappingFor orderId).brokerId? orderId).getD ""
        · simp only [if_pos hmoved]
          have h₁ := hrecord _ { v' with store := v'.store.upsertMapping orderId ack.brokerId }
            (hv.register hmapped ack.brokerId)
          split
          next _ dA hA => exact (h₁ _ _ hA).2 _
          next f dA hA => exact (h₁ _ _ hA).1
        · simp only [if_neg hmoved]
          have h₁ := hrecord d v' hv
          split
          next _ dA hA => exact (h₁ _ _ hA).2 _
          next f dA hA => exact (h₁ _ _ hA).1

/-! ### Fills -/

theorem store_keepsAcked_recordFills (v : Venue) (runId : String) (fills : List BrokerFill) :
    v.store.KeepsAcked (v.recordFills runId fills).2.2.store := by
  induction fills generalizing v with
  | nil => exact Store.KeepsAcked.refl _
  | cons f rest ih =>
    have h₁ := Store.keepsAcked_insertInbox v.store v.now runId f.messageId f.encode
    unfold Venue.recordFills
    dsimp only
    split
    · exact h₁.trans (ih { v with store := (v.store.insertInbox v.now runId f.messageId f.encode).2 })
    · exact h₁.trans (ih { v with store := (v.store.insertInbox v.now runId f.messageId f.encode).2 })

theorem applyFills_mapped {d : Desk} {v : Venue} (h : d.Mapped v.store) (fills : List BrokerFill) :
    (applyFills (d, v) fills).2.1.Mapped (applyFills (d, v) fills).2.2.store := by
  unfold applyFills
  dsimp only
  split
  · exact h
  · split
    · exact h
    · rename_i l _
      have hf := feedFills_mapped (BrokerFill.sortCanonical fills) { d with ledger := l } v
        (h.of_keepsAcked rfl rfl (Store.KeepsAcked.refl _))
      exact hf.of_keepsAcked rfl rfl (Store.keepsAcked_markAppliedAll _ _ _)

theorem ingestFills_mapped {d : Desk} {v : Venue} (h : d.Mapped v.store) (fills : List BrokerFill) :
    (ingestFills (d, v) fills).2.1.Mapped (ingestFills (d, v) fills).2.2.store := by
  unfold ingestFills
  split
  · exact h
  · dsimp only
    have h₁ : d.Mapped (v.recordFills d.runId fills).2.2.store :=
      h.of_keepsAcked rfl rfl (store_keepsAcked_recordFills v d.runId fills)
    have h₂ := applyFills_mapped h₁ (v.recordFills d.runId fills).1
    split
    · rename_i n w' heq
      rw [heq] at h₂
      exact h₂
    · rename_i f d' v' heq
      rw [heq] at h₂
      exact (h₂.of_keepsAcked rfl rfl (Store.keepsAcked_discardAll _ _)).keepsBook (keepsBook_disarm _ _)

/-! ### The passes -/

section Passes

theorem Intent.decode_of_ofStored {id : Int} {text : String} {i : Intent} (h : Intent.ofStored id text = .ok i) :
    Intent.decode text = some i := by
  unfold Intent.ofStored at h
  split at h
  · rename_i i' hi
    cases h
    exact hi
  · cases h

/-- Completing a row found claimed or sent, whose intent reads, keeps the invariant, at a venue
whose store is as it was; it leaves the rows of the other keys alone. -/
theorem complete_mapped {w : World} {row : OutboxRow} {intent : Intent} (h : w.1.Mapped w.2.store)
    (hr : w.2.store.row? row.key = some row) (hs : row.status = .claimed ∨ row.status = .sent)
    (hi : Intent.ofStored row.id row.orderJson = .ok intent) (ack : BrokerAck) {v : Venue} (hv : v.store = w.2.store) :
    (complete onSubmitted { intent with key := row.key } ack (w.1, v)).2.1.Mapped
        (complete onSubmitted { intent with key := row.key } ack (w.1, v)).2.2.store ∧
      ∀ k, k ≠ row.key →
        (complete onSubmitted { intent with key := row.key } ack (w.1, v)).2.2.store.row? k = w.2.store.row? k := by
  have hv' : w.1.Mapped v.store := hv ▸ h
  refine ⟨hv'.complete (by rw [hv]; exact hr) hs ⟨intent, Intent.decode_of_ofStored hi, rfl⟩, fun k hk => ?_⟩
  exact (complete_row? onSubmitted_framed _ ack (w.1, v) hk).trans (Store.row?_congr (by rw [hv]) k)

theorem dispatchRow_mapped (gs : Gates) {row : OutboxRow} {w : World} (h : w.1.Mapped w.2.store)
    (hr : w.2.store.row? row.key = some row) (hc : row.status = .claimed) :
    (dispatchRow gs onSubmitted row w).2.1.Mapped (dispatchRow gs onSubmitted row w).2.2.store := by
  have hfailed : w.1.Mapped (w.2.store.markFailed row.key).2 :=
    h.of_keepsAcked rfl rfl (Store.keepsAcked_markFailed _ _)
  unfold dispatchRow
  dsimp only
  split
  · rename_i intent hi
    split
    · exact hfailed
    · split
      · exact h
      · rename_i claim _
        have hst := (w.2.submit_spec gs claim { intent with key := row.key }).1
        split
        · rename_i f v hv
          rw [hv] at hst
          exact hst ▸ h
        · rename_i ack v hv
          rw [hv] at hst
          have hdone := (complete_mapped h hr (.inl hc) hi ack hst).1
          split
          · rename_i w' heq
            rw [heq] at hdone
            exact hdone
          · rename_i f w' heq
            rw [heq] at hdone
            exact hdone
  · exact hfailed

theorem store_keepsAcked_releaseRows (rows : List OutboxRow) (v : Venue) :
    v.store.KeepsAcked (releaseRows rows v).2.store := by
  unfold releaseRows
  refine List.foldlRecOn (motive := fun p : Nat × Venue => v.store.KeepsAcked p.2.store) rows _
    (Store.KeepsAcked.refl _) ?_
  intro p hp r _
  exact hp.trans (Store.keepsAcked_release _ _)

/-- A walk over claimed rows keeps the invariant, as long as each row is still the row of its
key when the walk reaches it. -/
theorem dispatchRows_mapped (gs : Gates) :
    ∀ (rows : List OutboxRow) (res : DispatchResult) (w : World), w.2.SubmitsOnce → w.1.Mapped w.2.store →
      (rows.map (·.key)).Nodup → (∀ r ∈ rows, w.2.store.row? r.key = some r ∧ r.status = .claimed) →
      (dispatchRows gs onSubmitted rows res w).2.1.Mapped (dispatchRows gs onSubmitted rows res w).2.2.store := by
  intro rows
  induction rows with
  | nil => intro res w _ h _ _; exact h
  | cons row rest ih =>
    intro res w hs h hnd hrows
    obtain ⟨hr, hc⟩ := hrows row List.mem_cons_self
    obtain ⟨hs', hframe⟩ := dispatchRow_spec gs onSubmitted_framed hs hr hc
    have h' := dispatchRow_mapped gs h hr hc
    have hnd' := List.nodup_cons.1 hnd
    have hrest : ∀ r ∈ rest,
        (dispatchRow gs onSubmitted row w).2.2.store.row? r.key = some r ∧ r.status = .claimed := by
      intro r hmem
      rw [hframe r.key (OutboxRow.key_ne_of_nodup hnd hmem)]
      exact hrows r (List.mem_cons_of_mem row hmem)
    simp only [dispatchRows]
    split
    · rename_i w' heq; rw [heq] at hs' h' hrest; exact ih _ _ hs' h' hnd'.2 hrest
    · rename_i w' heq; rw [heq] at hs' h' hrest; exact ih _ _ hs' h' hnd'.2 hrest
    · rename_i w' heq; rw [heq] at hs' h' hrest; exact ih _ _ hs' h' hnd'.2 hrest
    · rename_i w' heq
      rw [heq] at h'
      exact h'.of_keepsAcked rfl rfl (store_keepsAcked_releaseRows _ _)

theorem dispatchOnce_mapped (gs : Gates) (claimant : String) (batch : Int) {w : World} (hs : w.2.SubmitsOnce)
    (h : w.1.Mapped w.2.store) :
    (dispatchOnce gs onSubmitted claimant batch w).2.1.Mapped (dispatchOnce gs onSubmitted claimant batch w).2.2.store := by
  unfold dispatchOnce
  dsimp only
  obtain ⟨-, hset, hsub, hclaimed, -⟩ :=
    w.2.store.claimBatch_spec w.2.now (if batch ≤ 0 then 1 else batch) claimant
  have hkeep := Store.keepsAcked_claimBatch w.2.store w.2.now (if batch ≤ 0 then 1 else batch) claimant
  set p := w.2.store.claimBatch w.2.now (if batch ≤ 0 then 1 else batch) claimant
  have hs₁ : ({ w.2 with store := p.2 } : Venue).SubmitsOnce := hs.quiet hset (Paper.Calm.refl _)
  refine dispatchRows_mapped gs _ _ _ hs₁ (h.of_keepsAcked rfl rfl hkeep) ((hs₁.keys).sublist (hsub.map _)) ?_
  intro r hr
  exact ⟨Store.row?_of_mem hs₁.keys (hsub.subset hr), hclaimed r hr⟩

/-- Recovery keeps the invariant: it completes only rows it finds claimed or sent. -/
theorem recoverRows_mapped (gs : Gates) :
    ∀ (rows : List OutboxRow) (rep : RecoveryReport) (w : World), w.1.Mapped w.2.store →
      (rows.map (·.key)).Nodup → (∀ r ∈ rows, w.2.store.row? r.key = some r) →
      (recoverRows gs onSubmitted rows rep w).2.1.Mapped (recoverRows gs onSubmitted rows rep w).2.2.store := by
  intro rows
  induction rows with
  | nil => intro rep w h _ _; exact h
  | cons row rest ih =>
    intro rep w h hnd hrows
    have hr := hrows row List.mem_cons_self
    have hnd' := List.nodup_cons.1 hnd
    have hnext : ∀ (rep' : RecoveryReport) (w' : World), w'.1.Mapped w'.2.store →
        (∀ k, k ≠ row.key → w'.2.store.row? k = w.2.store.row? k) →
        (recoverRows gs onSubmitted rest rep' w').2.1.Mapped (recoverRows gs onSubmitted rest rep' w').2.2.store := by
      intro rep' w' h' hf
      refine ih rep' w' h' hnd'.2 fun r hmem => ?_
      rw [hf r.key (OutboxRow.key_ne_of_nodup hnd hmem)]
      exact hrows r (List.mem_cons_of_mem row hmem)
    have hsame : ∀ v : Venue, v.store = w.2.store →
        (w.1, v).1.Mapped (w.1, v).2.store ∧ ∀ k, k ≠ row.key → (w.1, v).2.store.row? k = w.2.store.row? k :=
      fun v hv => ⟨hv ▸ h, fun k _ => Store.row?_congr (by rw [hv]) k⟩
    have hvs : (w.2.lookup row.key).2.store = w.2.store := w.2.lookup_store row.key
    simp only [recoverRows]
    split
    · exact hnext rep w h fun _ _ => rfl
    · rename_i hstatus
      have hs : row.status = .claimed ∨ row.status = .sent :=
        Classical.or_iff_not_imp_left.2 (by simpa using hstatus)
      split
      · exact hnext _ w h fun _ _ => rfl
      · rename_i intent hi
        split
        · rename_i f v hv
          rw [hv] at hvs
          exact (hsame v hvs).1
        · rename_i id v hv
          rw [hv] at hvs
          obtain ⟨hc, hcf⟩ := complete_mapped h hr hs hi (recoveredAck id v.now) hvs
          split
          · rename_i f w' heq
            rw [heq] at hc
            exact hc
          · rename_i w' heq
            rw [heq] at hc hcf
            exact hnext _ w' hc hcf
        · rename_i v hv
          rw [hv] at hvs
          cases hcl : Claim.ofRow (some row) with
          | error f =>
            dsimp only
            split
            · exact hnext _ (w.1, v) (hsame v hvs).1 (hsame v hvs).2
            · exact (hsame v hvs).1
          | ok claim =>
            have hst := (v.submit_spec gs claim { intent with key := row.key }).1
            dsimp only
            split
            · rename_i f v' hv'
              rw [hv'] at hst
              have hsame' := hsame v' (hst.trans hvs)
              split
              · exact hnext _ (w.1, v') hsame'.1 hsame'.2
              · exact hsame'.1
            · rename_i ack v' hv'
              rw [hv'] at hst
              obtain ⟨hc, hcf⟩ := complete_mapped h hr hs hi ack (hst.trans hvs)
              split
              · rename_i f w' heq
                rw [heq] at hc
                exact hc
              · rename_i w' heq
                rw [heq] at hc hcf
                exact hnext _ w' hc hcf

theorem recoverRun_mapped (gs : Gates) (runId : String) {w : World} (hs : w.2.SubmitsOnce) (h : w.1.Mapped w.2.store) :
    (recoverRun gs onSubmitted runId w).2.1.Mapped (recoverRun gs onSubmitted runId w).2.2.store := by
  obtain ⟨hnd, hrows⟩ := rows_of_filter hs fun r => decide (r.runId = runId ∧ r.status ≠ .acked)
  exact recoverRows_mapped gs _ _ w h hnd fun r hr => (hrows r hr).1

/-- A sweep keeps the invariant: it releases claims, or completes claimed rows. -/
theorem sweepRows_mapped (now : Instant) :
    ∀ (rows : List OutboxRow) (rep : RecoveryReport) (w : World), w.1.Mapped w.2.store →
      (rows.map (·.key)).Nodup → (∀ r ∈ rows, w.2.store.row? r.key = some r ∧ r.status = .claimed) →
      (sweepRows onSubmitted now rows rep w).2.1.Mapped (sweepRows onSubmitted now rows rep w).2.2.store := by
  intro rows
  induction rows with
  | nil => intro rep w h _ _; exact h
  | cons row rest ih =>
    intro rep w h hnd hrows
    obtain ⟨hr, hc⟩ := hrows row List.mem_cons_self
    have hnd' := List.nodup_cons.1 hnd
    have hnext : ∀ (rep' : RecoveryReport) (w' : World), w'.1.Mapped w'.2.store →
        (∀ k, k ≠ row.key → w'.2.store.row? k = w.2.store.row? k) →
        (sweepRows onSubmitted now rest rep' w').2.1.Mapped (sweepRows onSubmitted now rest rep' w').2.2.store := by
      intro rep' w' h' hf
      refine ih rep' w' h' hnd'.2 fun r hmem => ?_
      rw [hf r.key (OutboxRow.key_ne_of_nodup hnd hmem)]
      exact hrows r (List.mem_cons_of_mem row hmem)
    have hvs : (w.2.lookup row.key).2.store = w.2.store := w.2.lookup_store row.key
    simp only [sweepRows]
    split
    · rename_i f v hv
      rw [hv] at hvs
      exact hnext _ (w.1, v) (hvs ▸ h) fun k _ => Store.row?_congr (by rw [hvs]) k
    · rename_i v hv
      rw [hv] at hvs
      have hrel : w.1.Mapped (v.store.release row.key).2 :=
        (hvs ▸ h : w.1.Mapped v.store).of_keepsAcked rfl rfl (Store.keepsAcked_release _ _)
      refine hnext _ _ hrel fun k hk => ?_
      exact (Store.row?_release_of_ne _ hk).trans (Store.row?_congr (by rw [hvs]) k)
    · rename_i id v hv
      rw [hv] at hvs
      split
      · exact hnext _ (w.1, v) (hvs ▸ h) fun k _ => Store.row?_congr (by rw [hvs]) k
      · rename_i intent hi
        obtain ⟨hdone, hdf⟩ := complete_mapped h hr (.inl hc) hi (recoveredAck id now) hvs
        split
        · rename_i f w' heq
          rw [heq] at hdone
          exact hdone
        · rename_i w' heq
          rw [heq] at hdone hdf
          exact hnext _ w' hdone hdf

theorem sweepStaleClaims_mapped (now : Instant) (ttl : Int64) {w : World} (hs : w.2.SubmitsOnce) (h : w.1.Mapped w.2.store) :
    (sweepStaleClaims onSubmitted now ttl w).2.1.Mapped (sweepStaleClaims onSubmitted now ttl w).2.2.store := by
  obtain ⟨hnd, hrows⟩ := rows_of_filter hs fun r => r.status == .claimed && r.claimedAt.any (· < now - ttl.toInt)
  refine sweepRows_mapped now _ _ w h hnd fun r hr => ⟨(hrows r hr).1, ?_⟩
  have := (hrows r hr).2
  simp only [Bool.and_eq_true, beq_iff_eq] at this
  exact this.1

end Passes

/-! ### Restarts -/

section Restart

theorem isSome_order?_putNew (d : Desk) (o : Order) (k : String) :
    ((if (d.order? o.id).isSome then d else d.putOrder o).order? k).isSome ↔ (d.order? k).isSome ∨ k = o.id := by
  split
  · rename_i ht
    exact ⟨.inl, fun hk => hk.elim id fun hk => hk ▸ ht⟩
  · rw [Desk.order?_putOrder]
    by_cases hk : o.id = k
    · simp [hk]
    · simp [hk, Ne.symm hk]

theorem order?_putNew {d : Desk} {o o' : Order} {k : String}
    (h : (if (d.order? o.id).isSome then d else d.putOrder o).order? k = some o') : d.order? k = some o' ∨ o' = o := by
  split at h
  · exact .inl h
  · rw [Desk.order?_putOrder] at h
    split at h
    · cases h
      exact .inr rfl
    · exact .inl h

/-- The orders a fold tracks when each step tracks a new order with a property `Q` for a mapping,
under the mapping's id, unless that id is tracked already: the orders of the start and one for
each id folded, each new one with `Q`. -/
theorem foldl_tracks {Q : Order → Prop} {g : Desk → Mapping → Desk} {es : List Mapping}
    (hg : ∀ d, ∀ e ∈ es, ∃ o : Order, o.id = e.internalId ∧ Q o ∧
      g d e = if (d.order? e.internalId).isSome then d else d.putOrder o) (d : Desk) :
    (es.foldl g d).ids = d.ids ∧
      (∀ k, ((es.foldl g d).order? k).isSome ↔ (d.order? k).isSome ∨ k ∈ es.map (·.internalId)) ∧
      ∀ k o, (es.foldl g d).order? k = some o → d.order? k = some o ∨ Q o := by
  induction es generalizing d with
  | nil => exact ⟨rfl, fun k => by simp, fun k o ho => .inl ho⟩
  | cons e rest ih =>
    obtain ⟨o, hid, hq, hge⟩ := hg d e List.mem_cons_self
    obtain ⟨hI, hII, hIII⟩ := ih (fun d' e' he' => hg d' e' (List.mem_cons_of_mem e he')) (g d e)
    rw [← hid] at hge
    refine ⟨hI.trans (by rw [hge]; split <;> rfl), fun k => ?_, fun k o' ho' => ?_⟩
    · rw [List.foldl_cons, hII, hge, isSome_order?_putNew, hid, List.map_cons, List.mem_cons, or_assoc]
    · -- an order tracked at the end was tracked after the first step, or is new after it
      rcases hIII k o' ho' with h' | h'
      · rw [hge] at h'
        rcases order?_putNew h' with h'' | rfl
        · exact .inl h''
        · exact .inr hq
      · exact .inr h'

/-- An order as a restart rebuilds it from the store: new, for the intent of its acked outbox row. -/
def Store.Rebuilt (s : Store) (o : Order) : Prop :=
  ∃ r i, s.row? o.id = some r ∧ r.status = .acked ∧ Intent.decode r.orderJson = some i ∧
    o = Order.new o.id i.symbol i.quantity

/-- A desk with no orders and the id map loaded from a store's mappings, folded over them with a
rebuilt order tracked for each unless tracked already, tracks exactly the mapped ids, each with a
rebuilt order. -/
theorem foldl_restore {s : Store} {d₁ : Desk} {g : Desk → Mapping → Desk}
    (hg : ∀ d', ∀ e ∈ s.mappings, ∃ o : Order, o.id = e.internalId ∧ s.Rebuilt o ∧
      g d' e = if (d'.order? e.internalId).isSome then d' else d'.putOrder o)
    (hids : d₁.ids = ({} : IdMap).load s.mappings) (hord : d₁.orders = []) :
    (s.mappings.foldl g d₁).ids = ({} : IdMap).load s.mappings ∧
      (∀ k, ((s.mappings.foldl g d₁).order? k).isSome ↔ ∃ b, { internalId := k, brokerId := b } ∈ s.mappings) ∧
      ∀ k o, (s.mappings.foldl g d₁).order? k = some o → s.Rebuilt o := by
  obtain ⟨hI, hII, hIII⟩ := foldl_tracks hg d₁
  have hnone : ∀ k, d₁.order? k = none := fun k => by simp [Desk.order?, hord]
  refine ⟨hI.trans hids, fun k => ?_, fun k o ho => ?_⟩
  · rw [hII k, hnone, Option.isSome_none, Bool.false_eq_true, false_or, List.mem_map]
    constructor
    · rintro ⟨e, he, rfl⟩
      exact ⟨e.brokerId, he⟩
    · rintro ⟨b, hb⟩
      exact ⟨_, hb, rfl⟩
  · rcases hIII k o ho with h' | h'
    · rw [hnone] at h'; cases h'
    · exact h'

/-- **Restoring tracks an order per mapping.** A desk booted over a store the invariant holds for,
with the orders restored from the store, loads its id map from the mappings and tracks exactly the
mapped ids, each with the order rebuilt from its acked row: every mapping has one, whose intent
reads. -/
theorem Desk.Mapped.restoreOrders_spec {d : Desk} {s : Store} (h : d.Mapped s) (c : DeskConfig) (p : Option ArmState) :
    ((Desk.boot c p).restoreOrders s).ids = ({} : IdMap).load s.mappings ∧
      (∀ k, (((Desk.boot c p).restoreOrders s).order? k).isSome ↔
        ∃ b, { internalId := k, brokerId := b } ∈ s.mappings) ∧
      ∀ k o, ((Desk.boot c p).restoreOrders s).order? k = some o → s.Rebuilt o := by
  unfold Desk.restoreOrders
  refine foldl_restore (fun d' e he => ?_) rfl rfl
  obtain ⟨o, ho, -⟩ := (h.live e.internalId).1 ⟨e.brokerId, he⟩
  obtain ⟨r, hr, ha, i, hi, -⟩ := h.acked _ o ho
  have hf : s.fetch e.internalId = .ok r := by
    unfold Store.fetch
    rw [hr]
  refine ⟨Order.new e.internalId i.symbol i.quantity, rfl, ⟨r, i, hr, ha, hi, rfl⟩, ?_⟩
  simp only [hf, hi]

theorem Desk.Mapped.restoreOrders {d : Desk} {s : Store} (h : d.Mapped s) (c : DeskConfig) (p : Option ArmState) :
    ((Desk.boot c p).restoreOrders s).Mapped s := by
  obtain ⟨hI, hII, hIII⟩ := h.restoreOrders_spec c p
  refine ⟨?_, fun e => ?_, h.once, fun k => ?_, fun k o ho => ?_⟩
  · rw [hI]
    exact IdMap.sorted_empty.load _
  · rw [hI, IdMap.mem_load IdMap.sorted_empty h.once (fun e he => absurd he List.not_mem_nil) e]
    exact ⟨fun he => he.resolve_left List.not_mem_nil, .inr⟩
  · rw [← hII k]
    constructor
    · intro hk
      obtain ⟨o, ho⟩ := Option.isSome_iff_exists.1 hk
      obtain ⟨r, i, -, -, -, hnew⟩ := hIII k o ho
      exact ⟨o, ho, by rw [hnew]; rfl⟩
    · rintro ⟨o, ho, -⟩
      rw [ho]; rfl
  · obtain ⟨r, i, hr, ha, hi, hnew⟩ := hIII k o ho
    rw [id_of_order? ho] at hr
    exact ⟨r, hr, ha, i, hi, by rw [hnew]; rfl⟩

theorem Venue.discardAll_append (v : Venue) (as bs : List String) :
    (v.discardAll as).discardAll bs = v.discardAll (as ++ bs) := by
  simp only [Venue.discardAll, List.foldl_append]

theorem sortInbox_discards (v : Venue) (rows : List InboxRow) : ∃ ids, (sortInbox v rows).2 = v.discardAll ids := by
  induction rows generalizing v with
  | nil => exact ⟨[], rfl⟩
  | cons row rest ih =>
    unfold sortInbox
    split
    · exact ⟨[], rfl⟩
    · obtain ⟨ids, hids⟩ := ih (v.discardAll [row.messageId])
      exact ⟨row.messageId :: ids, by rw [hids, Venue.discardAll_append]; rfl⟩
    · obtain ⟨ids, hids⟩ := ih v
      generalize sortInbox v rest = r at hids ⊢
      obtain ⟨res, v'⟩ := r
      cases res with
      | ok p => exact ⟨ids, hids⟩
      | error e => exact ⟨ids, hids⟩
    · obtain ⟨ids, hids⟩ := ih v
      generalize sortInbox v rest = r at hids ⊢
      obtain ⟨res, v'⟩ := r
      cases res with
      | ok p => exact ⟨ids, hids⟩
      | error e => exact ⟨ids, hids⟩

theorem applyInDoubt_mapped (fills : List BrokerFill) :
    ∀ {w : World}, w.1.Mapped w.2.store → (applyInDoubt w fills).1.Mapped (applyInDoubt w fills).2.store := by
  induction fills with
  | nil => intro w h; exact h
  | cons f rest ih =>
    intro w h
    obtain ⟨d, v⟩ := w
    have h₁ := applyFills_mapped h [f]
    unfold applyInDoubt
    split
    · rename_i n w' heq
      rw [heq] at h₁
      exact ih h₁
    · rename_i e d' v' heq
      rw [heq] at h₁
      exact ih (h₁.of_keepsAcked rfl rfl (Store.keepsAcked_discardAll _ _))

theorem quiet_applyInDoubt (fills : List BrokerFill) : ∀ (w : World), Venue.Quiet w.2 (applyInDoubt w fills).2 := by
  induction fills with
  | nil => intro w; exact Venue.Quiet.refl _
  | cons f rest ih =>
    intro w
    have h₁ := quiet_applyFills w [f]
    unfold applyInDoubt
    split
    · rename_i n w' heq
      rw [heq] at h₁
      exact h₁.trans (ih w')
    · rename_i e d' v' heq
      rw [heq] at h₁
      exact (h₁.trans (Venue.quiet_of_outbox_eq (Venue.outbox_discardAll v' [f.messageId]) rfl)).trans
        (ih (d', v'.discardAll [f.messageId]))

theorem restart_mapped (c : DeskConfig) {w : World} (h : w.1.Mapped w.2.store) :
    (restart c w).2.1.Mapped (restart c w).2.2.store := by
  unfold restart restore
  dsimp only
  have h₀ := h.restoreOrders c w.2.store.arm
  generalize hd : (Desk.boot c w.2.store.arm).restoreOrders w.2.store = d at h₀
  obtain ⟨ids, hids⟩ := sortInbox_discards w.2 (w.2.store.inboxOf d.runId)
  have h₁ : d.Mapped (sortInbox w.2 (w.2.store.inboxOf d.runId)).2.store := by
    rw [hids]
    exact h₀.of_keepsAcked rfl rfl (Store.keepsAcked_discardAll _ _)
  split
  · rename_i f v' heq
    rw [heq] at h₁
    exact h₁
  · rename_i accepted doubt v' heq
    rw [heq] at h₁
    have h₂ := applyFills_mapped h₁ accepted
    split
    · rename_i f w' heq'
      rw [heq'] at h₂
      exact h₂
    · rename_i n w' heq'
      rw [heq'] at h₂
      exact applyInDoubt_mapped _ h₂

theorem quiet_restart (c : DeskConfig) (w : World) : Venue.Quiet w.2 (restart c w).2.2 := by
  unfold restart restore
  dsimp only
  generalize (Desk.boot c w.2.store.arm).restoreOrders w.2.store = d
  obtain ⟨ids, hids⟩ := sortInbox_discards w.2 (w.2.store.inboxOf d.runId)
  have h₁ : Venue.Quiet w.2 (sortInbox w.2 (w.2.store.inboxOf d.runId)).2 := by
    rw [hids]
    exact Venue.quiet_of_outbox_eq (Venue.outbox_discardAll _ _) rfl
  split
  · rename_i f v' heq
    rw [heq] at h₁
    exact h₁
  · rename_i accepted doubt v' heq
    rw [heq] at h₁
    have h₂ := h₁.trans (quiet_applyFills (d, v') accepted)
    split
    · rename_i f w' heq'
      rw [heq'] at h₂
      exact h₂
    · rename_i n w' heq'
      rw [heq'] at h₂
      exact h₂.trans (quiet_applyInDoubt _ w')

end Restart

/-! ### Every reachable world -/

/-- The worlds a desk can be in: the start of a session, then actions, with restarts over the
venue a session left. -/
inductive Reachable : World → Prop
  | start (s : DeskSetup) : Reachable s.start
  | step {w : World} (a : Action) : Reachable w → Reachable (a.apply w)
  | restart {w : World} (c : DeskConfig) : Reachable w → Reachable (TradeDesk.restart c w).2

theorem Reachable.run {w : World} (h : Reachable w) (acts : List Action) : Reachable (Action.run w acts) :=
  @Action.run_induction Reachable (fun _ a hw => .step a hw) w acts h

theorem mapped_start (s : DeskSetup) : s.start.1.Mapped s.start.2.store := by
  have hbook : s.start.1.ids = {} ∧ s.start.1.orders = [] := by
    unfold DeskSetup.start
    dsimp only
    split_ifs <;> exact ⟨rfl, rfl⟩
  exact Desk.mapped_empty hbook.1 hbook.2 rfl

/-- Every action keeps the invariant, given that no order reaches the broker twice. -/
theorem Action.apply_mapped (a : Action) {w : World} (hs : w.2.SubmitsOnce) (h : w.1.Mapped w.2.store) :
    (a.apply w).1.Mapped (a.apply w).2.store := by
  obtain ⟨d, v⟩ := w
  cases a with
  | enqueue i => exact h.keepsBook (keepsBook_enqueueIntent _ i)
  | targets ts => exact h.keepsBook (keepsBook_enqueueAll _ _)
  | dispatch claimant batch => exact dispatchOnce_mapped _ claimant batch hs h
  | recover => exact recoverRun_mapped _ d.runId hs h
  | sweep ttl => exact sweepStaleClaims_mapped _ ttl hs h
  | execute fills report =>
    have hf : d.Mapped (v.fillAll fills).2.store := by
      rw [Venue.store_fillAll]
      exact h
    cases report
    · exact hf
    · exact ingestFills_mapped hf _
  | ingest fills => exact ingestFills_mapped h fills
  | event orderId ev eventId => exact applyEvent_mapped h orderId ev eventId
  | cancel orderId => exact cancel_mapped h orderId
  | replace orderId qty limit tif => exact replace_mapped h orderId qty limit tif
  | marks m => exact h.of_keepsAcked rfl rfl (Store.KeepsAcked.refl _)
  | arm => exact h.keepsBook (keepsBook_arm _)
  | disarm reason => exact h.keepsBook (keepsBook_disarm _ reason)
  | reconcile => exact h.keepsBook (keepsBook_reconcile _)
  | recordReconcile clean => exact h.of_keepsAcked rfl rfl (Store.KeepsAcked.refl _)
  | advance ns => exact h.of_keepsAcked rfl rfl (Store.KeepsAcked.refl _)
  | block reason => exact h.of_keepsAcked rfl rfl (Store.KeepsAcked.refl _)
  | unblock => exact h.of_keepsAcked rfl rfl (Store.KeepsAcked.refl _)
  | failNext message => exact h
  | lookupFail count => exact h

/-- In every reachable world the desk and the store agree on broker ids, and no order reaches the
broker twice. -/
theorem Reachable.mapped {w : World} (hw : Reachable w) : w.1.Mapped w.2.store ∧ w.2.SubmitsOnce := by
  induction hw with
  | start s => exact ⟨mapped_start s, Venue.submitsOnce_empty _ rfl rfl rfl⟩
  | step a _ ih => exact ⟨a.apply_mapped ih.2 ih.1, a.apply_submitsOnce _ ih.2⟩
  | restart c _ ih => exact ⟨restart_mapped c ih.1, ih.2.of_quiet (quiet_restart c _)⟩

/-- **The desk and the store agree on broker ids.** In every world a desk can reach, across
actions and restarts, the id map in memory and the persisted mappings give every order the same
broker id, the persisted mappings name each order once, and an order has a mapping exactly when
the desk tracks it and it is not terminal. -/
theorem broker_ids_agree {w : World} (hw : Reachable w) :
    (∀ k b, w.1.ids.brokerId? k = some b ↔ { internalId := k, brokerId := b } ∈ w.2.store.mappings) ∧
      (w.2.store.mappings.map (·.internalId)).Nodup ∧
      ∀ k, (∃ b, { internalId := k, brokerId := b } ∈ w.2.store.mappings) ↔
        ∃ o, w.1.order? k = some o ∧ o.state.terminal = false := by
  obtain ⟨h, -⟩ := hw.mapped
  exact ⟨fun k b => (IdMap.brokerId?_eq_some h.sorted).trans (h.same _), h.once, h.live⟩

/-- A session that queues one order and dispatches it, then a restart over its venue. -/
theorem broker_ids_agree_after_restart :
    let c : DeskConfig := { runId := "run", initialCash := 1000, fresh := 0, maxGross := 0, maxPerSymbol := 0 }
    let w := (restart c (Action.run (DeskSetup.start { config := c })
      [.enqueue { symbol := "ABC", side := .buy, quantity := 5 }, .dispatch "worker" 1])).2
    Reachable w ∧
      (∀ k b, w.1.ids.brokerId? k = some b ↔ { internalId := k, brokerId := b } ∈ w.2.store.mappings) ∧
      (w.2.store.mappings.map (·.internalId)).Nodup ∧
      ∀ k, (∃ b, { internalId := k, brokerId := b } ∈ w.2.store.mappings) ↔
        ∃ o, w.1.order? k = some o ∧ o.state.terminal = false := by
  intro c w
  have hw : Reachable w := .restart c ((Reachable.start { config := c }).run _)
  exact ⟨hw, broker_ids_agree hw⟩

end TradeDesk
