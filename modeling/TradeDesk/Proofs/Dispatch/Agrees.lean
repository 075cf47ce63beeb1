import TradeDesk.Proofs.Desk.Agrees
/-!
# The passes keep the agreement

The dispatcher and recovery submit an order only under the key of a row that is claimed or sent.
The desk does not track that key (a tracked order has an acked row), so the broker holds no order
under it either: the broker opens a new one, open and under the next issued id, and completing
the submission makes the desk track a live order mapped to it (`Agrees.submitted`). Every other
step of a pass is a change of the outbox that keeps its intents, a lookup, or a refused submit,
none of which the agreement sees. The sweeper only releases claims, since the broker never knows
the key of a claimed row.

As in the other proofs about passes, a pass walks rows read at its start, and each row is still
the row of its key when the walk reaches it: the keys are distinct and a step touches the outbox
only at its own row's key.
-/

namespace TradeDesk

namespace IdMap

/-- Registering an id gives it its new broker id and leaves the others. -/
theorem brokerId?_register {m : IdMap} (hs : m.Sorted) (k b k' : String) :
    (m.register k b).brokerId? k' = if k' = k then some b else m.brokerId? k' := by
  refine Option.ext fun b' => ?_
  rw [brokerId?_eq_some (hs.register k b), mem_register hs]
  split
  · rename_i he
    subst he
    simp [eq_comm]
  · rename_i hne
    rw [brokerId?_eq_some hs]
    simp [hne]

end IdMap

namespace Paper

/-- A book with one more order answers for the other client ids as before. -/
theorem byClient?_append_of_ne {b b' : Paper} {x : PaperOrder} (ho : b'.orders = b.orders ++ [x]) {k : String}
    (hk : x.clientId ≠ k) : b'.byClient? k = b.byClient? k := by
  simp [byClient?, ho, List.find?_append, hk]

theorem knows_append {b b' : Paper} {x : PaperOrder} (ho : b'.orders = b.orders ++ [x]) (k : String) :
    b'.Knows k ↔ b.Knows k ∨ k = x.clientId := by
  simp [Knows, ho, eq_comm]

end Paper

/-- What completing a submission does with the desk as its sink: the row is marked sent, the
broker id recorded in memory and in the store, the order tracked unless it already is, and the
row acked. -/
theorem complete_onSubmitted (intent : Intent) (ack : BrokerAck) (d : Desk) (v : Venue) :
    (complete onSubmitted intent ack (d, v)).2 =
      (if (d.order? intent.key).isSome then { d with ids := d.ids.register intent.key ack.brokerId }
        else ({ d with ids := d.ids.register intent.key ack.brokerId } : Desk).putOrder
          (Order.new intent.key intent.symbol intent.quantity),
        { v with store := (((v.store.markSent v.now intent.key).2.upsertMapping intent.key ack.brokerId).markAcked
          intent.key).2 }) := rfl

namespace Agrees

variable {d : Desk} {v : Venue} {owed : List BrokerFill}

/-- The broker holds no order under the key of a row that is not acked. -/
theorem not_knows (h : Agrees (d, v) owed) (hm : d.Mapped v.store) {r : OutboxRow} (hr : v.store.row? r.key = some r)
    (hs : r.status ≠ .acked) : ¬ v.broker.Knows r.key := fun hk => by
  have ht := h.tracked r.key hk
  rw [hm.untracked_of_row hr hs] at ht
  cases ht

/-- **A submission the broker took under a key the desk does not track, completed with the desk
as sink, keeps the agreement.** The desk tracks a new live order, mapped to the new open broker
order of its key. -/
theorem submitted (h : Agrees (d, v) owed) (hs : d.ids.Sorted) {intent : Intent} (hi : intent.Tradable)
    (hu : d.order? intent.key = none) {gs : Gates} {claim : Claim} (hkey : claim.key = intent.key) {ack : BrokerAck}
    (hok : (v.submit gs claim intent).1 = .ok ack) :
    Agrees (complete onSubmitted intent ack (d, (v.submit gs claim intent).2)).2 owed := by
  have hn : ¬ v.broker.Knows claim.key := fun hk => by
    have ht := h.tracked _ hk
    rw [hkey, hu] at ht
    cases ht
  obtain ⟨hst, -, hfill, hcases⟩ := v.submit_cases gs claim intent hn
  rcases hcases with ⟨⟨f, hf⟩, -, -⟩ | ⟨ack', hack', hbid, horders, hissued⟩
  · rw [hok] at hf
    cases hf
  rw [hok] at hack'
  cases hack'
  generalize (v.submit gs claim intent).2 = v' at hst hfill horders hissued
  have hbooks : v'.Books := h.books.opened hn (show ({ intent with key := claim.key } : Intent).Tradable from hi)
    (by rw [horders, hbid]) hissued
    (h.books.rows.of_outbox (by rw [hst]))
  have hnew : ({ brokerId := ack.brokerId, clientId := claim.key, request := { intent with key := claim.key } } :
      PaperOrder) ∈ v'.broker.orders := by
    rw [horders]
    exact List.mem_append_right _ (List.mem_singleton_self _)
  rw [complete_onSubmitted, if_neg (by simp [hu])]
  have hord : ∀ k', ((({ d with ids := d.ids.register intent.key ack.brokerId } : Desk).putOrder
      (Order.new intent.key intent.symbol intent.quantity)).order? k') =
        if intent.key = k' then some (Order.new intent.key intent.symbol intent.quantity) else d.order? k' :=
    fun k' => Desk.order?_putOrder _ _ k'
  have htracked : ∀ k', (d.order? k').isSome → (((({ d with ids := d.ids.register intent.key ack.brokerId } : Desk).putOrder
      (Order.new intent.key intent.symbol intent.quantity)).order? k').isSome) := fun k' hk' => by
    rw [hord]
    split
    · rfl
    · exact hk'
  refine
    { books := hbooks.congr rfl (Nat.le_refl _)
        (((hbooks.rows.markSent _ _).of_outbox (Store.outbox_upsertMapping _ _ _)).markAcked _)
      sorted := Desk.pairwise_insertOrder _ h.sorted
      halted := fun k' hk' => ?_
      tracked := fun k' hk' => ?_
      live := fun k' o ho hl => ?_
      valid := h.valid
      increasing := h.increasing
      above := h.above
      made := fun f hf => hfill ▸ h.made f hf
      counted := fun n hn => hfill ▸ h.counted n hn
      named := h.named
      inbox := fun r hr => h.inbox r (by simpa [hst] using hr)
      seen := fun k' o ho hnt m hm' => ?_ }
  · -- only tracked orders are halted, and the key was not tracked
    obtain ⟨o, ho, hl⟩ := h.halted k' hk'
    have hne : intent.key ≠ k' := fun he => by
      rw [← he, hu] at ho
      cases ho
    exact ⟨o, by rw [hord, if_neg hne]; exact ho, hl⟩
  · rcases (Paper.knows_append horders k').1 hk' with hk' | rfl
    · exact htracked k' (h.tracked k' hk')
    · rw [hord, if_pos hkey.symm]
      rfl
  · rw [hord] at ho
    split at ho
    · rename_i he
      subst he
      refine ⟨{ brokerId := ack.brokerId, clientId := claim.key, request := { intent with key := claim.key } }, ?_, ?_,
        .inl rfl⟩
      · rw [← hkey]
        exact hbooks.distinct.byClient? hnew
      · show (d.ids.register intent.key ack.brokerId).brokerId? intent.key = some ack.brokerId
        rw [IdMap.brokerId?_register hs, if_pos rfl]
    · rename_i hne
      obtain ⟨p, hp, hid, hopen⟩ := h.live k' o ho hl
      refine ⟨p, ?_, ?_, hopen⟩
      · rw [Paper.byClient?_append_of_ne horders (by rw [hkey]; exact hne)]
        exact hp
      · show (d.ids.register intent.key ack.brokerId).brokerId? k' = some p.brokerId
        rw [IdMap.brokerId?_register hs, if_neg (Ne.symm hne)]
        exact hid
  · rw [hord] at ho
    split at ho
    · cases ho
      cases hm'
    · exact h.seen k' o ho hnt m hm'

/-- A venue whose store changed by moves of outbox rows that keep their intents and the inbox. -/
theorem store (h : Agrees (d, v) owed) {s : Store} (hr : s.Tradable) (hi : s.inbox = v.store.inbox) :
    Agrees (d, { v with store := s }) owed :=
  h.frame (Desk.SameOrders.refl d) (Venue.sameBook_of_store v s hi) hr

/-- A submit the gateway or the broker refused under a key the broker does not know changes no
order of the book. -/
theorem refused (h : Agrees (d, v) owed) {gs : Gates} {claim : Claim} {req : Intent} (hn : ¬ v.broker.Knows claim.key)
    {f : Fault} (hf : (v.submit gs claim req).1 = .error f) : Agrees (d, (v.submit gs claim req).2) owed := by
  obtain ⟨hst, -, hfill, hcases⟩ := v.submit_cases gs claim req hn
  rcases hcases with ⟨-, ho, hi⟩ | ⟨ack, hack, -⟩
  · exact h.frame (Desk.SameOrders.refl d) ⟨ho, hfill, by rw [hi], by rw [hst]⟩ (h.books.rows.of_outbox (by rw [hst]))
  · rw [hf] at hack
    cases hack

theorem lookup (h : Agrees (d, v) owed) (k : String) : Agrees (d, (v.lookup k).2) owed := by
  obtain ⟨ho, hs⟩ := v.broker.lookup_keeps k
  exact h.frame (Desk.SameOrders.refl d) ⟨ho, hs, Nat.le_refl _, rfl⟩ h.books.rows

/-- A lookup under the key of a row that is not acked answers that the broker has no order. -/
theorem lookup_none (h : Agrees (d, v) owed) (hm : d.Mapped v.store) {r : OutboxRow} (hr : v.store.row? r.key = some r)
    (hs : r.status ≠ .acked) {id : String} : (v.lookup r.key).1 ≠ .ok (some id) := fun he =>
  h.not_knows hm hr hs (Classical.not_not.1 fun hn => Option.some_ne_none id ((Venue.lookup_ok he).2 hn))

end Agrees

/-! ### The dispatcher -/

theorem releaseRows_tradable (rows : List OutboxRow) (v : Venue) (h : v.store.Tradable) :
    (releaseRows rows v).2.store.Tradable := by
  unfold releaseRows
  refine List.foldlRecOn (motive := fun q : Nat × Venue => q.2.store.Tradable) rows _ h ?_
  intro q hq r _
  exact hq.release r.key

theorem releaseRows_venue (rows : List OutboxRow) (v : Venue) :
    (releaseRows rows v).2 = { v with store := (releaseRows rows v).2.store } := by
  unfold releaseRows
  refine List.foldlRecOn (motive := fun q : Nat × Venue => q.2 = { v with store := q.2.store }) rows _ rfl ?_
  rintro ⟨n, ⟨now, ids, store, broker⟩⟩ hq r _
  obtain ⟨rfl, rfl, -, rfl⟩ := Venue.mk.inj hq
  cases store.release r.key
  rfl

theorem releaseRows_inbox (rows : List OutboxRow) (v : Venue) : (releaseRows rows v).2.store.inbox = v.store.inbox := by
  unfold releaseRows
  refine List.foldlRecOn (motive := fun q : Nat × Venue => q.2.store.inbox = v.store.inbox) rows _ rfl ?_
  intro q hq r _
  exact (Store.inbox_release _ _).trans hq

section Passes

variable {owed : List BrokerFill}

/-- One claimed row of a dispatch pass keeps the agreement. -/
theorem dispatchRow_agrees (gs : Gates) {row : OutboxRow} {w : World} (h : Agrees w owed) (hm : w.1.Mapped w.2.store)
    (hr : w.2.store.row? row.key = some row) (hc : row.status = .claimed) :
    Agrees (dispatchRow gs onSubmitted row w).2 owed := by
  obtain ⟨d, v⟩ := w
  have hfailed : Agrees (d, { v with store := (v.store.markFailed row.key).2 }) owed :=
    h.store (h.books.rows.markFailed _) (Store.inbox_markFailed _ _)
  have hna : row.status ≠ .acked := by rw [hc]; decide
  unfold dispatchRow
  dsimp only
  split
  · rename_i intent hi
    split
    · exact hfailed
    · split
      · exact h
      · rename_i claim hclaim
        have hkey : claim.key = row.key := Claim.key_of_ofRow hclaim
        have hit : ({ intent with key := row.key } : Intent).Tradable :=
          h.books.rows row (Store.mem_of_row? hr).1 intent (Intent.decode_of_ofStored hi)
        split
        · rename_i f v' hv
          have hr' : Agrees (d, (v.submit gs claim { intent with key := row.key }).2) owed :=
            h.refused (hkey ▸ h.not_knows hm hr hna) (by rw [hv])
          rw [hv] at hr'
          exact hr'
        · rename_i ack v' hv
          have hdone := h.submitted hm.sorted hit (hm.untracked_of_row hr hna) hkey (by rw [hv])
          rw [hv] at hdone
          split
          · rename_i w' heq
            rw [heq] at hdone
            exact hdone
          · rename_i f w' heq
            rw [heq] at hdone
            exact hdone
  · exact hfailed

/-- A walk over claimed rows keeps the agreement, as long as each row is still the row of its key
when the walk reaches it. -/
theorem dispatchRows_agrees (gs : Gates) :
    ∀ (rows : List OutboxRow) (res : DispatchResult) (w : World), Agrees w owed → w.1.Mapped w.2.store →
      w.2.SubmitsOnce → (rows.map (·.key)).Nodup → (∀ r ∈ rows, w.2.store.row? r.key = some r ∧ r.status = .claimed) →
      Agrees (dispatchRows gs onSubmitted rows res w).2 owed := by
  intro rows
  induction rows with
  | nil => intro res w h _ _ _ _; exact h
  | cons row rest ih =>
    intro res w h hm hs hnd hrows
    obtain ⟨hr, hc⟩ := hrows row List.mem_cons_self
    obtain ⟨hs', hframe⟩ := dispatchRow_spec gs onSubmitted_framed hs hr hc
    have hm' := dispatchRow_mapped gs hm hr hc
    have h' := dispatchRow_agrees gs h hm hr hc
    have hnd' := List.nodup_cons.1 hnd
    have hrest : ∀ r ∈ rest,
        (dispatchRow gs onSubmitted row w).2.2.store.row? r.key = some r ∧ r.status = .claimed := by
      intro r hmem
      rw [hframe r.key (OutboxRow.key_ne_of_nodup hnd hmem)]
      exact hrows r (List.mem_cons_of_mem row hmem)
    simp only [dispatchRows]
    split
    · rename_i w' heq; rw [heq] at h' hm' hs' hrest; exact ih _ _ h' hm' hs' hnd'.2 hrest
    · rename_i w' heq; rw [heq] at h' hm' hs' hrest; exact ih _ _ h' hm' hs' hnd'.2 hrest
    · rename_i w' heq; rw [heq] at h' hm' hs' hrest; exact ih _ _ h' hm' hs' hnd'.2 hrest
    · rename_i w' heq
      rw [heq] at h'
      show Agrees (w'.1, (releaseRows (row :: rest) w'.2).2) owed
      rw [releaseRows_venue]
      exact h'.store (releaseRows_tradable (row :: rest) w'.2 h'.books.rows) (releaseRows_inbox (row :: rest) w'.2)

/-- **A dispatch pass keeps the agreement.** -/
theorem dispatchOnce_agrees (gs : Gates) (claimant : String) (batch : Int) {w : World} (h : Agrees w owed)
    (hm : w.1.Mapped w.2.store) (hs : w.2.SubmitsOnce) : Agrees (dispatchOnce gs onSubmitted claimant batch w).2 owed := by
  obtain ⟨d, v⟩ := w
  unfold dispatchOnce
  dsimp only
  obtain ⟨-, hset, hsub, hclaimed, -⟩ := v.store.claimBatch_spec v.now (if batch ≤ 0 then 1 else batch) claimant
  have hkeep := Store.keepsAcked_claimBatch v.store v.now (if batch ≤ 0 then 1 else batch) claimant
  have h₁ := h.store (h.books.rows.claimBatch v.now (if batch ≤ 0 then 1 else batch) claimant)
    (Store.inbox_claimBatch _ _ _ _)
  set p := v.store.claimBatch v.now (if batch ≤ 0 then 1 else batch) claimant
  have hs₁ : ({ v with store := p.2 } : Venue).SubmitsOnce := hs.quiet hset (Paper.Calm.refl _)
  refine dispatchRows_agrees gs _ _ _ h₁ (hm.of_keepsAcked rfl rfl hkeep) hs₁ ((hs₁.keys).sublist (hsub.map _)) ?_
  intro r hr
  exact ⟨Store.row?_of_mem hs₁.keys (hsub.subset hr), hclaimed r hr⟩

/-! ### Recovery and the sweeper -/

/-- Recovery keeps the agreement. Under it the broker has no order under the key of a claimed or
sent row, so every lookup answers none or fails, and recovery only resubmits. -/
theorem recoverRows_agrees (gs : Gates) :
    ∀ (rows : List OutboxRow) (rep : RecoveryReport) (w : World), Agrees w owed → w.1.Mapped w.2.store →
      (rows.map (·.key)).Nodup → (∀ r ∈ rows, w.2.store.row? r.key = some r) →
      Agrees (recoverRows gs onSubmitted rows rep w).2 owed := by
  intro rows
  induction rows with
  | nil => intro rep w h _ _ _; exact h
  | cons row rest ih =>
    intro rep w h hm hnd hrows
    have hr := hrows row List.mem_cons_self
    have hnd' := List.nodup_cons.1 hnd
    have hnext : ∀ (rep' : RecoveryReport) (w' : World), Agrees w' owed → w'.1.Mapped w'.2.store →
        (∀ k, k ≠ row.key → w'.2.store.row? k = w.2.store.row? k) →
        Agrees (recoverRows gs onSubmitted rest rep' w').2 owed := by
      intro rep' w' h' hm' hf
      refine ih rep' w' h' hm' hnd'.2 fun r hmem => ?_
      rw [hf r.key (OutboxRow.key_ne_of_nodup hnd hmem)]
      exact hrows r (List.mem_cons_of_mem row hmem)
    obtain ⟨d, v₀⟩ := w
    have hvs : (v₀.lookup row.key).2.store = v₀.store := v₀.lookup_store row.key
    have hl := h.lookup row.key
    simp only [recoverRows]
    split
    · exact hnext rep _ h hm fun _ _ => rfl
    · rename_i hstatus
      have hs : row.status = .claimed ∨ row.status = .sent :=
        Classical.or_iff_not_imp_left.2 (by simpa using hstatus)
      have hna : row.status ≠ .acked := by rcases hs with hs | hs <;> rw [hs] <;> decide
      split
      · exact hnext _ _ h hm fun _ _ => rfl
      · rename_i intent hi
        have hit : ({ intent with key := row.key } : Intent).Tradable :=
          h.books.rows row (Store.mem_of_row? hr).1 intent (Intent.decode_of_ofStored hi)
        split
        · rename_i f v hv
          rw [hv] at hl
          exact hl
        · rename_i id v hv
          exact absurd (congrArg Prod.fst hv) (h.lookup_none hm hr hna)
        · rename_i v hv
          rw [hv] at hvs hl
          have hmv : d.Mapped v.store := by rw [hvs]; exact hm
          have hrv : v.store.row? row.key = some row := (Store.row?_congr (by rw [hvs]) row.key).trans hr
          have hframe : ∀ k, k ≠ row.key → v.store.row? k = v₀.store.row? k :=
            fun k _ => Store.row?_congr (by rw [hvs]) k
          cases hcl : Claim.ofRow (some row) with
          | error f =>
            dsimp only
            split
            · exact hnext _ (d, v) hl hmv hframe
            · exact hl
          | ok claim =>
            have hkey : claim.key = row.key := Claim.key_of_ofRow hcl
            have hst := (v.submit_spec gs claim { intent with key := row.key }).1
            dsimp only
            split
            · rename_i f v' hv'
              have href : Agrees (d, (v.submit gs claim { intent with key := row.key }).2) owed :=
                hl.refused (hkey ▸ hl.not_knows hmv hrv hna) (by rw [hv'])
              rw [hv'] at href hst
              have hmv' : d.Mapped v'.store := by rw [hst]; exact hmv
              split
              · exact hnext _ (d, v') href hmv' fun k hk => (Store.row?_congr (by rw [hst]) k).trans (hframe k hk)
              · exact href
            · rename_i ack v' hv'
              have hdone := hl.submitted hmv.sorted hit (hmv.untracked_of_row hrv hna) hkey (by rw [hv'])
              rw [hv'] at hdone hst
              obtain ⟨hc, hcf⟩ := complete_mapped hm hr hs hi ack (hst.trans hvs)
              split
              · rename_i f w' heq
                rw [heq] at hdone
                exact hdone
              · rename_i w' heq
                rw [heq] at hdone hc hcf
                exact hnext _ w' hdone hc hcf

/-- **A recovery pass keeps the agreement.** -/
theorem recoverRun_agrees (gs : Gates) (runId : String) {w : World} (h : Agrees w owed) (hm : w.1.Mapped w.2.store)
    (hs : w.2.SubmitsOnce) : Agrees (recoverRun gs onSubmitted runId w).2 owed := by
  obtain ⟨hnd, hrows⟩ := rows_of_filter hs fun r => decide (r.runId = runId ∧ r.status ≠ .acked)
  exact recoverRows_agrees gs _ _ w h hm hnd fun r hr => (hrows r hr).1

/-- A sweep keeps the agreement: the broker knows no key of a claimed row, so the sweep only
releases claims. -/
theorem sweepRows_agrees (now : Instant) :
    ∀ (rows : List OutboxRow) (rep : RecoveryReport) (w : World), Agrees w owed → w.1.Mapped w.2.store →
      (rows.map (·.key)).Nodup → (∀ r ∈ rows, w.2.store.row? r.key = some r ∧ r.status = .claimed) →
      Agrees (sweepRows onSubmitted now rows rep w).2 owed := by
  intro rows
  induction rows with
  | nil => intro rep w h _ _ _; exact h
  | cons row rest ih =>
    intro rep w h hm hnd hrows
    obtain ⟨hr, hc⟩ := hrows row List.mem_cons_self
    have hnd' := List.nodup_cons.1 hnd
    have hnext : ∀ (rep' : RecoveryReport) (w' : World), Agrees w' owed → w'.1.Mapped w'.2.store →
        (∀ k, k ≠ row.key → w'.2.store.row? k = w.2.store.row? k) →
        Agrees (sweepRows onSubmitted now rest rep' w').2 owed := by
      intro rep' w' h' hm' hf
      refine ih rep' w' h' hm' hnd'.2 fun r hmem => ?_
      rw [hf r.key (OutboxRow.key_ne_of_nodup hnd hmem)]
      exact hrows r (List.mem_cons_of_mem row hmem)
    obtain ⟨d, v₀⟩ := w
    have hvs : (v₀.lookup row.key).2.store = v₀.store := v₀.lookup_store row.key
    have hl := h.lookup row.key
    simp only [sweepRows]
    split
    · rename_i f v hv
      rw [hv] at hvs hl
      exact hnext _ (d, v) hl (by rw [hvs]; exact hm) fun k _ => Store.row?_congr (by rw [hvs]) k
    · rename_i v hv
      rw [hv] at hvs hl
      have hrel : d.Mapped (v.store.release row.key).2 :=
        (show d.Mapped v.store by rw [hvs]; exact hm).of_keepsAcked rfl rfl (Store.keepsAcked_release _ _)
      refine hnext _ _ (hl.store (hl.books.rows.release row.key) (Store.inbox_release _ _)) hrel fun k hk => ?_
      exact (Store.row?_release_of_ne _ hk).trans (Store.row?_congr (by rw [hvs]) k)
    · rename_i id v hv
      exact absurd (congrArg Prod.fst hv) (h.lookup_none hm hr (by rw [hc]; decide))

/-- **A sweep keeps the agreement.** -/
theorem sweepStaleClaims_agrees (now : Instant) (ttl : Int64) {w : World} (h : Agrees w owed) (hm : w.1.Mapped w.2.store)
    (hs : w.2.SubmitsOnce) : Agrees (sweepStaleClaims onSubmitted now ttl w).2 owed := by
  obtain ⟨hnd, hrows⟩ := rows_of_filter hs fun r => r.status == .claimed && r.claimedAt.any (· < now - ttl.toInt)
  refine sweepRows_agrees now _ _ w h hm hnd fun r hr => ⟨(hrows r hr).1, ?_⟩
  have := (hrows r hr).2
  simp only [Bool.and_eq_true, beq_iff_eq] at this
  exact this.1

end Passes

end TradeDesk
