import TradeDesk.Proofs.Store.Outbox
import TradeDesk.Proofs.Broker.Book
import TradeDesk.Dispatch.Once
import TradeDesk.Dispatch.Recovery
/-!
# No order reaches the broker twice

The broker answers a second submit under a client id with the order it already holds, and
counts the submit. What keeps that from happening is the outbox. `SubmitsOnce` is the invariant:
every submit so far opened an order of its own, a row still waiting to reach the broker (pending
or claimed) has a key the broker does not know, keys name one row each, and the broker knows only
keys of rows.

Whatever settles the store and leaves the broker calm keeps the invariant (`SubmitsOnce.quiet`).
The one step that does neither is a submit, and it is always followed at once by marking the row
sent, which takes it out of the waiting rows (`SubmitsOnce.opened`). The three passes submit only
under a key the broker does not know: a dispatcher under the key of a row it has just claimed,
which was pending, and recovery only after the broker answered a lookup of the key with nothing.
The sweeper never submits; it releases a claim only after such an answer, and a claimed row the
broker knew would already break the invariant.

The passes are proved for any sink that leaves the outbox and the broker alone (`Sink.Framed`),
whether it accepts or refuses what it is told. A pass walks a list of rows read at its start; that
each row is still the row of its key when the pass reaches it follows from the keys being
distinct and every step of a row touching the outbox only at that row's key.
-/

namespace TradeDesk

namespace Venue

/-- The outbox and the broker's book agree so that no order can reach the broker twice. -/
structure SubmitsOnce (v : Venue) : Prop where
  /-- Every submit so far opened an order of its own. -/
  counted : v.broker.submits = v.broker.orders.length
  /-- A row waiting to reach the broker has a key the broker does not know. -/
  unknown : ∀ r ∈ v.store.outbox, r.Waiting → ¬ v.broker.Knows r.key
  /-- A key names one row. -/
  keys : v.store.keys.Nodup
  /-- The broker knows only keys of rows. -/
  known : ∀ k, v.broker.Knows k → k ∈ v.store.keys

theorem submitsOnce_empty (v : Venue) (ho : v.store.outbox = []) (hb : v.broker.orders = [])
    (hs : v.broker.submits = 0) : v.SubmitsOnce where
  counted := by rw [hs, hb]; rfl
  unknown := fun r hr => by rw [ho] at hr; cases hr
  keys := by simp [Store.keys, ho]
  known := fun k hk => by simp [Paper.Knows, hb] at hk

/-- A settled store and a calm broker keep the invariant. -/
theorem SubmitsOnce.quiet {v v' : Venue} (h : v.SubmitsOnce) (hs : Store.Settles v.store v'.store)
    (hb : Paper.Calm v.broker v'.broker) : v'.SubmitsOnce where
  counted := by rw [hb.submits, hb.length]; exact h.counted
  unknown := fun r hr hw hk => by
    obtain ⟨r₀, hr₀, hw₀, hk₀⟩ := hs.waiting r hr hw
    exact h.unknown r₀ hr₀ hw₀ (hk₀ ▸ hb.knows _ hk)
  keys := hs.keys ▸ h.keys
  known := fun k hk => hs.keys ▸ h.known k (hb.knows k hk)

theorem SubmitsOnce.of_outbox_eq {v v' : Venue} (h : v.SubmitsOnce) (ho : v'.store.outbox = v.store.outbox)
    (hb : v'.broker = v.broker) : v'.SubmitsOnce :=
  h.quiet (Store.settles_of_outbox_eq ho) (by rw [hb]; exact Paper.Calm.refl _)

/-- A submit that opened an order under the key of a claimed or sent row, followed by marking the
row sent, keeps the invariant: the row that now has a known key no longer waits. -/
theorem SubmitsOnce.opened {v v' : Venue} {k : String} {r : OutboxRow} (now : Instant) (h : v.SubmitsOnce)
    (hr : v.store.row? k = some r) (hs : r.status = .claimed ∨ r.status = .sent)
    (ho : Paper.Opens v.broker v'.broker k) (hst : v'.store = (v.store.markSent now k).2) : v'.SubmitsOnce := by
  have hset : Store.Settles v.store v'.store := hst ▸ Store.settles_markSent v.store now k
  obtain ⟨r', hr', hsent⟩ := Store.row?_markSent_self now hr hs
  rw [← hst] at hr'
  have hkeys : v'.store.keys.Nodup := hset.keys ▸ h.keys
  obtain ⟨o, -, horders⟩ := ho.orders
  refine ⟨?_, ?_, hkeys, ?_⟩
  · rw [ho.submits, horders, List.length_append, h.counted]; rfl
  · intro x hx hw hk
    rcases (ho.knows x.key).1 hk with hk | hk
    · obtain ⟨x₀, hx₀, hw₀, hk₀⟩ := hset.waiting x hx hw
      exact h.unknown x₀ hx₀ hw₀ (hk₀ ▸ hk)
    · -- the row of the key is the sent one, since keys name one row
      have hx' := Store.row?_of_mem hkeys hx
      rw [hk, hr'] at hx'
      cases hx'
      rcases hw with hw | hw <;> rw [hsent] at hw <;> cases hw
  · intro k' hk'
    rw [hset.keys]
    rcases (ho.knows k').1 hk' with hk' | rfl
    · exact h.known k' hk'
    · obtain ⟨hmem, hkey⟩ := Store.mem_of_row? hr
      exact hkey ▸ List.mem_map_of_mem hmem

end Venue

/-- A sink that touches neither the outbox nor the broker. -/
def Sink.Framed {σ : Type} (sink : Sink σ) : Prop :=
  ∀ intent ack w, (sink intent ack w).2.2.store.outbox = w.2.store.outbox ∧ (sink intent ack w).2.2.broker = w.2.broker

theorem Claim.key_of_ofRow {row : OutboxRow} {claim : Claim} (h : Claim.ofRow (some row) = .ok claim) :
    claim.key = row.key := by
  simp only [Claim.ofRow, Claim.ofParts] at h
  split at h
  · cases h
  · split at h
    · cases h; rfl
    · cases h

theorem OutboxRow.key_ne_of_nodup {row r : OutboxRow} {rest : List OutboxRow} (hnd : ((row :: rest).map (·.key)).Nodup)
    (hr : r ∈ rest) : r.key ≠ row.key := by
  intro he
  have hout : row.key ∉ rest.map (·.key) := (List.nodup_cons.1 hnd).1
  exact hout (he ▸ List.mem_map_of_mem hr)

section Passes

variable {σ : Type} {gs : Gates} {sink : Sink σ}

/-- Completing a submission keeps the invariant once the row is marked sent. -/
theorem complete_submitsOnce (hsink : sink.Framed) (intent : Intent) (ack : BrokerAck) (w : σ × Venue)
    (h : (w.2.markSent intent.key).SubmitsOnce) : (complete sink intent ack w).2.2.SubmitsOnce := by
  obtain ⟨ho, hb⟩ := hsink intent ack (w.1, w.2.markSent intent.key)
  have h₁ := h.of_outbox_eq ho hb
  unfold complete
  dsimp only
  split
  · rename_i f w' heq
    rw [heq] at h₁
    exact h₁
  · rename_i w' heq
    rw [heq] at h₁
    exact h₁.quiet (Store.settles_markAcked _ _) (Paper.Calm.refl _)

/-- Completing a submission touches the outbox only at the intent's key. -/
theorem complete_row? (hsink : sink.Framed) (intent : Intent) (ack : BrokerAck) (w : σ × Venue) {k : String}
    (hk : k ≠ intent.key) : (complete sink intent ack w).2.2.store.row? k = w.2.store.row? k := by
  obtain ⟨ho, -⟩ := hsink intent ack (w.1, w.2.markSent intent.key)
  have h₁ := Store.row?_congr ho k
  have h₀ : (w.2.markSent intent.key).store.row? k = w.2.store.row? k := Store.row?_markSent_of_ne _ _ hk
  unfold complete
  dsimp only
  split
  · rename_i f w' heq
    rw [heq] at h₁
    exact h₁.trans h₀
  · rename_i w' heq
    rw [heq] at h₁
    exact (Store.row?_markAcked_of_ne _ hk).trans (h₁.trans h₀)

theorem releaseRows_submitsOnce (rows : List OutboxRow) {v : Venue} (h : v.SubmitsOnce) :
    (releaseRows rows v).2.SubmitsOnce := by
  unfold releaseRows
  refine List.foldlRecOn (motive := fun p : Nat × Venue => p.2.SubmitsOnce) rows _ h ?_
  intro p hp r _
  exact hp.quiet (Store.settles_release _ _) (Paper.Calm.refl _)

/-! ### A dispatch pass -/

/-- One claimed row: whatever becomes of it, the invariant holds after, and no other key's row
changed. -/
theorem dispatchRow_spec (gs : Gates) (hsink : sink.Framed) {row : OutboxRow} {w : σ × Venue} (h : w.2.SubmitsOnce)
    (hr : w.2.store.row? row.key = some row) (hc : row.status = .claimed) :
    (dispatchRow gs sink row w).2.2.SubmitsOnce ∧
      ∀ k, k ≠ row.key → (dispatchRow gs sink row w).2.2.store.row? k = w.2.store.row? k := by
  have hfailed : ({ w.2 with store := (w.2.store.markFailed row.key).2 } : Venue).SubmitsOnce ∧
      ∀ k, k ≠ row.key → (w.2.store.markFailed row.key).2.row? k = w.2.store.row? k :=
    ⟨h.quiet (Store.settles_markFailed _ _) (Paper.Calm.refl _), fun k hk => Store.row?_markFailed_of_ne _ hk⟩
  unfold dispatchRow
  dsimp only
  split
  · rename_i intent hi
    split
    · exact hfailed
    · split
      · exact ⟨h, fun _ _ => rfl⟩
      · rename_i claim hclaim
        have hkey : claim.key = row.key := Claim.key_of_ofRow hclaim
        obtain ⟨hst, hcalm, hopen⟩ := w.2.submit_spec gs claim { intent with key := row.key }
        split
        · rename_i f v hv
          rw [hv] at hst hcalm
          exact ⟨h.quiet (by rw [hst]; exact Store.Settles.refl _) (hcalm ⟨f, rfl⟩),
            fun k _ => Store.row?_congr (by rw [hst]) k⟩
        · rename_i ack v hv
          rw [hv] at hst hopen
          dsimp only at hst hopen
          have hn : ¬ w.2.broker.Knows claim.key := hkey ▸ h.unknown row (Store.mem_of_row? hr).1 (.inr hc)
          have h₁ : (v.markSent row.key).SubmitsOnce :=
            h.opened v.now hr (.inl hc) (hkey ▸ hopen ⟨ack, rfl⟩ hn) (by rw [Venue.markSent, hst])
          have h₂ := complete_submitsOnce hsink { intent with key := row.key } ack (w.1, v) h₁
          have h₃ := fun k (hk : k ≠ row.key) =>
            (complete_row? hsink { intent with key := row.key } ack (w.1, v) hk).trans
              (Store.row?_congr (show v.store.outbox = w.2.store.outbox by rw [hst]) k)
          split
          · rename_i w' heq
            rw [heq] at h₂ h₃
            exact ⟨h₂, h₃⟩
          · rename_i f w' heq
            rw [heq] at h₂ h₃
            exact ⟨h₂, h₃⟩
  · exact hfailed

/-- A walk over claimed rows keeps the invariant, as long as each row is still the row of its
key when the walk reaches it. -/
theorem dispatchRows_submitsOnce (hsink : sink.Framed) :
    ∀ (rows : List OutboxRow) (res : DispatchResult) (w : σ × Venue), w.2.SubmitsOnce →
      (rows.map (·.key)).Nodup → (∀ r ∈ rows, w.2.store.row? r.key = some r ∧ r.status = .claimed) →
      (dispatchRows gs sink rows res w).2.2.SubmitsOnce := by
  intro rows
  induction rows with
  | nil => intro res w h _ _; exact h
  | cons row rest ih =>
    intro res w h hnd hrows
    obtain ⟨hr, hc⟩ := hrows row List.mem_cons_self
    obtain ⟨h', hframe⟩ := dispatchRow_spec gs hsink h hr hc
    have hnd' := (List.nodup_cons.1 hnd)
    -- the rows after this one are untouched by it
    have hrest : ∀ r ∈ rest, (dispatchRow gs sink row w).2.2.store.row? r.key = some r ∧ r.status = .claimed := by
      intro r hmem
      rw [hframe r.key (OutboxRow.key_ne_of_nodup hnd hmem)]
      exact hrows r (List.mem_cons_of_mem row hmem)
    simp only [dispatchRows]
    split
    · rename_i w' heq; rw [heq] at h' hrest; exact ih _ _ h' hnd'.2 hrest
    · rename_i w' heq; rw [heq] at h' hrest; exact ih _ _ h' hnd'.2 hrest
    · rename_i w' heq; rw [heq] at h' hrest; exact ih _ _ h' hnd'.2 hrest
    · rename_i w' heq; rw [heq] at h'; exact releaseRows_submitsOnce _ h'

/-- **A dispatch pass submits no key twice.** -/
theorem dispatchOnce_submitsOnce (hsink : sink.Framed) (claimant : String) (batch : Int) {w : σ × Venue}
    (h : w.2.SubmitsOnce) : (dispatchOnce gs sink claimant batch w).2.2.SubmitsOnce := by
  unfold dispatchOnce
  dsimp only
  obtain ⟨hwith, hset, hsub, hclaimed, -⟩ :=
    w.2.store.claimBatch_spec w.2.now (if batch ≤ 0 then 1 else batch) claimant
  set p := w.2.store.claimBatch w.2.now (if batch ≤ 0 then 1 else batch) claimant
  have h₁ : ({ w.2 with store := p.2 } : Venue).SubmitsOnce := h.quiet hset (Paper.Calm.refl _)
  refine dispatchRows_submitsOnce hsink _ _ _ h₁ ((h₁.keys).sublist (hsub.map _)) ?_
  intro r hr
  exact ⟨Store.row?_of_mem h₁.keys (hsub.subset hr), hclaimed r hr⟩

/-! ### Recovery and the sweeper -/

/-- The rows of a filter of the outbox are the rows of their keys, and their keys are distinct. -/
theorem rows_of_filter {v : Venue} (h : v.SubmitsOnce) (p : OutboxRow → Bool) :
    ((v.store.outbox.filter p).map (·.key)).Nodup ∧
      ∀ r ∈ v.store.outbox.filter p, v.store.row? r.key = some r ∧ p r = true := by
  refine ⟨h.keys.sublist ((List.filter_sublist).map _), fun r hr => ?_⟩
  obtain ⟨hmem, hp⟩ := List.mem_filter.1 hr
  exact ⟨Store.row?_of_mem h.keys hmem, hp⟩

/-- A key the broker was just asked about and did not know is still unknown after the lookup. -/
theorem not_knows_of_lookup {v : Venue} {k : String} (hv : (v.lookup k).1 = .ok none) :
    ¬ (v.lookup k).2.broker.Knows k := fun hk =>
  (Venue.lookup_ok hv).1 rfl ((v.calm_lookup k).knows k hk)

theorem recoverRows_submitsOnce (hsink : sink.Framed) :
    ∀ (rows : List OutboxRow) (rep : RecoveryReport) (w : σ × Venue), w.2.SubmitsOnce →
      (rows.map (·.key)).Nodup → (∀ r ∈ rows, w.2.store.row? r.key = some r) →
      (recoverRows gs sink rows rep w).2.2.SubmitsOnce := by
  intro rows
  induction rows with
  | nil => intro rep w h _ _; exact h
  | cons row rest ih =>
    intro rep w h hnd hrows
    have hr := hrows row List.mem_cons_self
    have hnd' := List.nodup_cons.1 hnd
    -- the rest of the pass only needs the rows of the other keys to be as they were
    have hnext : ∀ (rep' : RecoveryReport) (w' : σ × Venue), w'.2.SubmitsOnce →
        (∀ k, k ≠ row.key → w'.2.store.row? k = w.2.store.row? k) →
        (recoverRows gs sink rest rep' w').2.2.SubmitsOnce := by
      intro rep' w' h' hf
      refine ih rep' w' h' hnd'.2 fun r hmem => ?_
      rw [hf r.key (OutboxRow.key_ne_of_nodup hnd hmem)]
      exact hrows r (List.mem_cons_of_mem row hmem)
    have hlook : ∀ r v, w.2.lookup row.key = (r, v) →
        v.SubmitsOnce ∧ v.store = w.2.store ∧ ∀ k, k ≠ row.key → v.store.row? k = w.2.store.row? k := by
      intro r v hv
      have hvs : v.store = w.2.store := by rw [← w.2.lookup_store row.key, hv]
      have hcalm := w.2.calm_lookup row.key
      rw [hv] at hcalm
      exact ⟨h.quiet (Store.settles_of_outbox_eq (by rw [hvs])) hcalm, hvs,
        fun k _ => Store.row?_congr (by rw [hvs]) k⟩
    simp only [recoverRows]
    split
    · exact hnext rep w h fun _ _ => rfl
    · rename_i hstatus
      have hs : row.status = .claimed ∨ row.status = .sent :=
        Classical.or_iff_not_imp_left.2 (by simpa using hstatus)
      split
      · exact hnext _ w h fun _ _ => rfl
      · rename_i intent hi
        split
        · rename_i f v hv
          exact (hlook _ v hv).1
        · rename_i id v hv
          obtain ⟨hv₁, hvs, hvf⟩ := hlook _ v hv
          have hm : (v.markSent row.key).SubmitsOnce :=
            hv₁.quiet (Store.settles_markSent _ _ _) (Paper.Calm.refl _)
          have hc := complete_submitsOnce hsink { intent with key := row.key } (recoveredAck id v.now) (w.1, v) hm
          have hcf := fun k (hk : k ≠ row.key) =>
            (complete_row? hsink { intent with key := row.key } (recoveredAck id v.now) (w.1, v) hk).trans (hvf k hk)
          split
          · rename_i f w' heq
            rw [heq] at hc
            exact hc
          · rename_i w' heq
            rw [heq] at hc hcf
            exact hnext _ w' hc hcf
        · rename_i v hv
          obtain ⟨hv₁, hvs, hvf⟩ := hlook _ v hv
          have hn : ¬ v.broker.Knows row.key := by
            have := not_knows_of_lookup (v := w.2) (k := row.key) (by rw [hv])
            rwa [hv] at this
          cases hcl : Claim.ofRow (some row) with
          | error f =>
            dsimp only
            split
            · exact hnext _ (w.1, v) hv₁ hvf
            · exact hv₁
          | ok claim =>
            have hkey : claim.key = row.key := Claim.key_of_ofRow hcl
            obtain ⟨hst, hcalm, hopen⟩ := v.submit_spec gs claim { intent with key := row.key }
            dsimp only
            split
            · rename_i f v' hv'
              rw [hv'] at hst hcalm
              dsimp only at hst hcalm
              have hq : v'.SubmitsOnce := hv₁.quiet (by rw [hst]; exact Store.Settles.refl _) (hcalm ⟨f, rfl⟩)
              split
              · exact hnext _ (w.1, v') hq fun k hk => (Store.row?_congr
                  (show v'.store.outbox = v.store.outbox by rw [hst]) k).trans (hvf k hk)
              · exact hq
            · rename_i ack v' hv'
              rw [hv'] at hst hopen
              dsimp only at hst hopen
              have hrv : v.store.row? row.key = some row := (Store.row?_congr
                (show v.store.outbox = w.2.store.outbox by rw [hvs]) row.key).trans hr
              have hm : (v'.markSent row.key).SubmitsOnce :=
                hv₁.opened v'.now hrv hs (hkey ▸ hopen ⟨ack, rfl⟩ (hkey ▸ hn)) (by rw [Venue.markSent, hst])
              have hc := complete_submitsOnce hsink { intent with key := row.key } ack (w.1, v') hm
              have hcf := fun k (hk : k ≠ row.key) =>
                ((complete_row? hsink { intent with key := row.key } ack (w.1, v') hk).trans
                  (Store.row?_congr (show v'.store.outbox = v.store.outbox by rw [hst]) k)).trans (hvf k hk)
              split
              · rename_i f w' heq
                rw [heq] at hc
                exact hc
              · rename_i w' heq
                rw [heq] at hc hcf
                exact hnext _ w' hc hcf

/-- **Recovery submits no key twice.** -/
theorem recoverRun_submitsOnce (hsink : sink.Framed) (runId : String) {w : σ × Venue} (h : w.2.SubmitsOnce) :
    (recoverRun gs sink runId w).2.2.SubmitsOnce := by
  obtain ⟨hnd, hrows⟩ := rows_of_filter h fun r => decide (r.runId = runId ∧ r.status ≠ .acked)
  exact recoverRows_submitsOnce hsink _ _ w h hnd fun r hr => (hrows r hr).1

/-- A sweep keeps the invariant whatever its sink does: under the invariant the broker never
knows the key of a claimed row, so the sweep never completes one. -/
theorem sweepRows_submitsOnce (now : Instant) :
    ∀ (rows : List OutboxRow) (rep : RecoveryReport) (w : σ × Venue), w.2.SubmitsOnce →
      (rows.map (·.key)).Nodup → (∀ r ∈ rows, w.2.store.row? r.key = some r ∧ r.status = .claimed) →
      (sweepRows sink now rows rep w).2.2.SubmitsOnce := by
  intro rows
  induction rows with
  | nil => intro rep w h _ _; exact h
  | cons row rest ih =>
    intro rep w h hnd hrows
    obtain ⟨hr, hc⟩ := hrows row List.mem_cons_self
    have hnd' := List.nodup_cons.1 hnd
    have hnext : ∀ (rep' : RecoveryReport) (w' : σ × Venue), w'.2.SubmitsOnce →
        (∀ k, k ≠ row.key → w'.2.store.row? k = w.2.store.row? k) →
        (sweepRows sink now rest rep' w').2.2.SubmitsOnce := by
      intro rep' w' h' hf
      refine ih rep' w' h' hnd'.2 fun r hmem => ?_
      rw [hf r.key (OutboxRow.key_ne_of_nodup hnd hmem)]
      exact hrows r (List.mem_cons_of_mem row hmem)
    have hvs : (w.2.lookup row.key).2.store = w.2.store := w.2.lookup_store row.key
    have hv₁ : (w.2.lookup row.key).2.SubmitsOnce :=
      h.quiet (Store.settles_of_outbox_eq (by rw [hvs])) (w.2.calm_lookup row.key)
    simp only [sweepRows]
    split
    · rename_i f v hv
      rw [hv] at hvs hv₁
      exact hnext _ (w.1, v) hv₁ fun k _ => Store.row?_congr (by rw [hvs]) k
    · rename_i v hv
      rw [hv] at hvs hv₁
      refine hnext _ _ (hv₁.quiet (Store.settles_release _ _) (Paper.Calm.refl _)) fun k hk => ?_
      exact (Store.row?_release_of_ne _ hk).trans (Store.row?_congr (by rw [hvs]) k)
    · -- the broker cannot know the key of a row that is still claimed
      rename_i id v hv
      have hk : w.2.broker.Knows row.key := by
        have hl := Venue.lookup_ok (v := w.2) (k := row.key) (r := some id) (by rw [hv])
        exact Classical.not_not.1 fun hn => absurd (hl.2 hn) (by simp)
      exact absurd hk (h.unknown row (Store.mem_of_row? hr).1 (.inr hc))

/-- **The sweeper submits nothing and keeps the invariant.** -/
theorem sweepStaleClaims_submitsOnce (now : Instant) (ttl : Int64) {w : σ × Venue} (h : w.2.SubmitsOnce) :
    (sweepStaleClaims sink now ttl w).2.2.SubmitsOnce := by
  obtain ⟨hnd, hrows⟩ := rows_of_filter h fun r => r.status == .claimed && r.claimedAt.any (· < now - ttl.toInt)
  refine sweepRows_submitsOnce now _ _ w h hnd fun r hr => ⟨(hrows r hr).1, ?_⟩
  have := (hrows r hr).2
  simp only [Bool.and_eq_true, beq_iff_eq] at this
  exact this.1

end Passes

end TradeDesk
