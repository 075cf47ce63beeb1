import TradeDesk.Proofs.Desk.Steady
import TradeDesk.Proofs.Dispatch.SubmitsOnce
/-!
# A session submits no order twice

Every action of a session keeps `Venue.SubmitsOnce`, and a session starts from an empty venue,
where it holds. So after every action the broker has counted exactly one submit per client id it
holds, and the key of every row still waiting for the dispatcher is one the broker has never seen.

The actions fall in three kinds. Queuing an intent adds a row under a key the outbox does not have,
and the broker knows only keys of rows, so the new key is unknown to it. The three passes take the
desk as their sink, which touches only the persisted broker ids, so the pass lemmas apply. Every
other action is `Quiet`: it settles the store and leaves the broker calm.
-/

namespace TradeDesk

namespace Venue

theorem SubmitsOnce.of_quiet {v v' : Venue} (h : v.SubmitsOnce) (hq : Quiet v v') : v'.SubmitsOnce :=
  h.quiet hq.store hq.broker

/-- Queuing a row keeps the invariant: its key is new to the outbox, and the broker knows only
keys of rows, so the broker does not know it. -/
theorem SubmitsOnce.enqueue {v v' : Venue} {now : Instant} {runId key json : String} {b : Bool}
    (h : v.SubmitsOnce) (he : v.store.enqueue now runId key json = .ok (b, v'.store))
    (hb : v'.broker = v.broker) : v'.SubmitsOnce := by
  rcases Store.enqueue_ok he with hs | ⟨hk, r, hr, ho⟩
  · exact h.of_quiet (quiet_of_outbox_eq (by rw [hs]) hb)
  have hkeys : v'.store.keys = v.store.keys ++ [key] := by
    simp only [Store.keys, ho, List.map_append, List.map_cons, List.map_nil, hr]
  refine ⟨by rw [hb]; exact h.counted, ?_, ?_, ?_⟩
  · intro x hx hw hkn
    rw [ho, List.mem_append, List.mem_singleton] at hx
    rw [hb] at hkn
    rcases hx with hx | rfl
    · exact h.unknown x hx hw hkn
    · exact hk (hr ▸ h.known _ hkn)
  · rw [hkeys]
    exact List.Nodup.append h.keys (List.nodup_singleton key) (fun a ha hb' => hk ((List.mem_singleton.1 hb') ▸ ha))
  · intro k hkn
    rw [hkeys]
    exact List.mem_append_left _ (h.known k (hb ▸ hkn))

end Venue

/-! ### The desk's own operations -/

section Operations

open Venue

theorem onSubmitted_framed : onSubmitted.Framed := by
  rintro intent ack ⟨d, v⟩
  exact ⟨Store.outbox_upsertMapping _ _ _, rfl⟩

/-- Queuing an intent keeps the invariant, whether it is refused, already queued or new. -/
theorem enqueueIntent_submitsOnce (w : World) (i : Intent) (h : w.2.SubmitsOnce) :
    (enqueueIntent w i).2.2.SubmitsOnce := by
  obtain ⟨-, hb, hs | ⟨now, runId, key, json, b, he⟩⟩ := enqueueIntent_cases w i
  · exact h.of_quiet (quiet_of_outbox_eq (by rw [hs]) hb)
  · exact h.enqueue he hb

theorem enqueueAll_submitsOnce (intents : List Intent) (w : World) (h : w.2.SubmitsOnce) :
    (enqueueAll w intents).2.2.2.SubmitsOnce := by
  induction intents generalizing w with
  | nil => exact h
  | cons i rest ih =>
    have h₁ := enqueueIntent_submitsOnce w i h
    unfold enqueueAll
    split
    · rename_i f w' heq
      rw [heq] at h₁
      exact h₁
    · rename_i queued _ w' heq
      rw [heq] at h₁
      exact ih w' h₁

end Operations

/-! ### Sessions -/

theorem Action.apply_submitsOnce (a : Action) (w : World) (h : w.2.SubmitsOnce) : (a.apply w).2.SubmitsOnce := by
  cases a with
  | enqueue i => exact enqueueIntent_submitsOnce w i h
  | targets ts => exact enqueueAll_submitsOnce _ w h
  | dispatch claimant batch => exact dispatchOnce_submitsOnce onSubmitted_framed claimant batch h
  | recover => exact recoverRun_submitsOnce onSubmitted_framed w.1.runId h
  | sweep ttl => exact sweepStaleClaims_submitsOnce _ ttl h
  | execute fills report =>
    have hf : (w.2.fillAll fills).2.SubmitsOnce := h.of_quiet (Venue.quiet_fillAll w.2 fills)
    cases report
    · exact hf
    · exact hf.of_quiet (quiet_ingestFills (w.1, (w.2.fillAll fills).2) _)
  | ingest fills => exact h.of_quiet (quiet_ingestFills w fills)
  | event orderId ev eventId => exact h.of_quiet (steady_applyEvent w orderId ev eventId).quiet
  | cancel orderId => exact h.of_quiet (steady_cancel w orderId).quiet
  | replace orderId qty limit tif => exact h.of_quiet (steady_replace w orderId qty limit tif).quiet
  | marks m => exact h
  | arm => exact h.of_quiet (steady_arm w).quiet
  | disarm reason => exact h.of_quiet (steady_disarm w reason).quiet
  | reconcile => exact h.of_quiet (steady_reconcile w).quiet
  | recordReconcile clean => exact h
  | advance ns => exact h.of_quiet (Venue.quiet_of_outbox_eq rfl rfl)
  | block reason => exact h
  | unblock => exact h
  | failNext message => exact h.of_quiet ⟨Store.Settles.refl _, Paper.calm_failNextWith _ _⟩
  | lookupFail count => exact h.of_quiet ⟨Store.Settles.refl _, Paper.calm_of_orders rfl rfl⟩

/-- **No order reaches the broker twice.** After any session, the broker has counted one submit
per client id it holds, and it holds the key of no pending row. -/
theorem session_never_resubmits (s : DeskSetup) (acts : List Action) :
    let v := (Action.run s.start acts).2
    v.broker.submits = v.broker.clientIds.length ∧
      ∀ r ∈ v.store.outbox, r.status = .pending → v.broker.byClient? r.key = none := by
  intro v
  have h : v.SubmitsOnce :=
    Action.run_induction (P := fun w => w.2.SubmitsOnce) (fun w a hw => a.apply_submitsOnce w hw) s.start acts
      (Venue.submitsOnce_empty _ rfl rfl rfl)
  refine ⟨?_, fun r hr hp => Paper.byClient?_eq_none_iff.2 (h.unknown r hr (.inl hp))⟩
  rw [h.counted, Paper.clientIds, List.length_mergeSort, List.length_map]

end TradeDesk
