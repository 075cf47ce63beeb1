import TradeDesk.Proofs.Desk.Fills
import TradeDesk.Proofs.Dispatch.Frame
/-!
# Every fill is applied once

`AppliedOnce c fs gs` is the invariant of a session whose desk started with the cash `c` and an
empty inbox: the inbox records the reports `fs`, one row per message id, each of the desk's run
and applied, and the ledger is the one that took the same reports, in a strictly increasing order
of sequence numbers `gs`, from the cash `c`.

Only taking in fills changes the inbox or the ledger. The reports an ingest records are new
message ids, written unapplied at the end of the inbox. If the ledger accepts them as a batch,
they join the ledger in canonical order, all above its last number, and their rows are stamped;
if it refuses, their rows are discarded again, which leaves exactly the rows that were there
before, and the ledger is untouched. Every other action keeps the inbox, the ledger and the run:
the steady ones by `Steady`, queuing because it writes only the outbox, and the passes because
the desk as their sink only registers broker ids and orders.
-/

namespace TradeDesk

/-- The inbox records the reports `fs`, one row per message id, all of the desk's run and all
applied; the ledger took the same reports, in increasing sequence order `gs`, from the cash `c`. -/
structure AppliedOnce (c : Int64) (fs gs : List BrokerFill) (w : World) : Prop where
  /-- Each row carries the message id and the text of its report. -/
  rows : w.2.store.inbox.map (fun r => (r.messageId, r.messageJson)) = fs.map fun f => (f.messageId, f.encode)
  ids : (fs.map (·.messageId)).Nodup
  run : ∀ r ∈ w.2.store.inbox, r.runId = w.1.runId
  applied : ∀ r ∈ w.2.store.inbox, r.appliedAt.isSome
  perm : gs.Perm fs
  increasing : Ledger.Increasing (gs.map BrokerFill.tagged)
  /-- Each fill passed the ledger's check. -/
  valid : ∀ f ∈ gs, f.tagged.fill.check = none
  ledger : w.1.ledger = Ledger.ofFills c (gs.map BrokerFill.tagged)

namespace AppliedOnce

variable {c : Int64} {fs gs : List BrokerFill}

/-- What keeps the inbox, the ledger and the run keeps the invariant. -/
theorem of_books {w w' : World} (h : AppliedOnce c fs gs w) (hi : w'.2.store.inbox = w.2.store.inbox)
    (hl : w'.1.ledger = w.1.ledger) (hr : w'.1.runId = w.1.runId) : AppliedOnce c fs gs w' where
  rows := hi ▸ h.rows
  ids := h.ids
  run := fun r hmem => hr ▸ h.run r (hi ▸ hmem)
  applied := fun r hmem => h.applied r (hi ▸ hmem)
  perm := h.perm
  increasing := h.increasing
  valid := h.valid
  ledger := hl.trans h.ledger

theorem steady {w w' : World} (h : AppliedOnce c fs gs w) (hs : Steady w w') : AppliedOnce c fs gs w' :=
  h.of_books hs.inbox hs.ledger hs.runId

theorem keeps {w w' : World} (h : AppliedOnce c fs gs w) (hk : Keeps (fun d : Desk => (d.ledger, d.runId)) w w') :
    AppliedOnce c fs gs w' :=
  h.of_books hk.inbox (Prod.mk.inj hk.state).1 (Prod.mk.inj hk.state).2

/-- **New reports join the invariant.** Rows at the end of the inbox that record new reports
under new, distinct message ids, all of the desk's run and applied, extend the invariant when
the ledger took the same reports after the old ones. -/
theorem append {w w' : World} (h : AppliedOnce c fs gs w) {rows : List InboxRow} {new hs : List BrokerFill}
    (hinbox : w'.2.store.inbox = w.2.store.inbox ++ rows)
    (htexts : rows.map (fun r => (r.messageId, r.messageJson)) = new.map fun f => (f.messageId, f.encode))
    (hids : (new.map (·.messageId)).Nodup) (hnew : ∀ f ∈ new, f.messageId ∉ fs.map (·.messageId))
    (hruns : ∀ r ∈ rows, r.runId = w.1.runId) (happ : ∀ r ∈ rows, r.appliedAt.isSome)
    (hrun : w'.1.runId = w.1.runId) (hperm : hs.Perm new)
    (hinc : Ledger.Increasing ((gs ++ hs).map BrokerFill.tagged)) (hval : ∀ f ∈ gs ++ hs, f.tagged.fill.check = none)
    (hl : w'.1.ledger = Ledger.ofFills c ((gs ++ hs).map BrokerFill.tagged)) :
    AppliedOnce c (fs ++ new) (gs ++ hs) w' where
  rows := by rw [hinbox, List.map_append, h.rows, htexts, List.map_append]
  ids := by
    rw [List.map_append]
    refine List.nodup_append.2 ⟨h.ids, hids, fun a ha b hb hab => ?_⟩
    obtain ⟨f, hf, rfl⟩ := List.mem_map.1 hb
    exact hnew f hf (hab ▸ ha)
  run := fun r hr => by
    rw [hrun]
    rcases List.mem_append.1 (hinbox ▸ hr) with ho | hn
    · exact h.run r ho
    · exact hruns r hn
  applied := fun r hr => by
    rcases List.mem_append.1 (hinbox ▸ hr) with ho | hn
    · exact h.applied r ho
    · exact happ r hn
  perm := h.perm.append hperm
  increasing := hinc
  valid := hval
  ledger := hl

theorem start (s : DeskSetup) : AppliedOnce s.config.initialCash [] [] s.start where
  rows := rfl
  ids := List.nodup_nil
  run := fun r hr => by cases hr
  applied := fun r hr => by cases hr
  perm := List.Perm.refl _
  increasing := List.Pairwise.nil
  valid := fun f hf => by cases hf
  ledger := by
    unfold DeskSetup.start
    dsimp only
    split <;> split <;> rfl

/-- **Taking in fills keeps the invariant**: the reports recorded join it when the ledger accepts
them, and leave no trace when it refuses. -/
theorem ingest {w : World} (h : AppliedOnce c fs gs w) (fills : List BrokerFill) :
    ∃ fs' gs', AppliedOnce c fs' gs' (ingestFills w fills).2 := by
  unfold ingestFills
  split
  · exact ⟨fs, gs, h⟩
  · split
    rename_i d v
    obtain ⟨rows, hi, hrows, hnd, hnew, -⟩ := recordFills_spec v d.runId fills
    split
    rename_i fresh dups v₁ hrec
    rw [hrec] at hi hrows
    dsimp only at hi hrows
    obtain ⟨hrowTexts, hrowRun⟩ := recorded_rows hrows
    have hrowIds := (ids_texts_of_rows hrowTexts).1
    have hfreshIds : ∀ r ∈ rows, r.messageId ∈ fresh.map (·.messageId) := fun r hr =>
      hrowIds ▸ List.mem_map_of_mem hr
    have hinboxIds := (ids_texts_of_rows h.rows).1
    split
    · rename_i n w' heq
      obtain ⟨hl, hr, hinb⟩ := applyFills_ok heq
      rw [h.ledger] at hl
      obtain ⟨hl', hchecks, hinc, habove⟩ := Ledger.applyCanonical_ofFills hl
      -- the old rows were applied already, and the batch stamps every new one
      have hinbox : w'.2.store.inbox = v.store.inbox ++
          rows.map fun r => if r.messageId ∈ fresh.map (·.messageId) then r.stamp v₁.now else r := by
        rw [hinb, hi, List.map_append, Store.stamped_of_applied h.applied]
      refine ⟨fs ++ fresh, gs ++ BrokerFill.sortCanonical fresh, h.append hinbox ?_ (hrowIds ▸ hnd) ?_ ?_ ?_ hr
        (BrokerFill.sortCanonical_perm fresh) ?_ ?_ ?_⟩
      · rw [Store.map_stamped (fun r => (r.messageId, r.messageJson)) (fun _ => rfl), hrowTexts]
      · intro f hf hmem
        obtain ⟨r, hr, hid⟩ := List.mem_map.1 (hrowIds ▸ List.mem_map_of_mem hf : f.messageId ∈ rows.map (·.messageId))
        exact hnew r hr (hinboxIds ▸ hid ▸ hmem)
      · intro r hmem
        obtain ⟨r₀, hr₀, rfl⟩ := List.mem_map.1 hmem
        split <;> exact (hrowRun r₀ hr₀).1
      · intro r hmem
        obtain ⟨r₀, hr₀, rfl⟩ := List.mem_map.1 hmem
        rw [if_pos (hfreshIds r₀ hr₀)]
        exact InboxRow.isSome_appliedAt_stamp _ _
      · rw [List.map_append, BrokerFill.sortCanonical_map_tagged]
        exact h.increasing.append hinc habove
      · intro f hf
        rcases List.mem_append.1 hf with hg | hs
        · exact h.valid f hg
        · exact hchecks f.tagged (BrokerFill.sortCanonical_map_tagged fresh ▸ List.mem_map_of_mem hs)
      · rw [hl', List.map_append, BrokerFill.sortCanonical_map_tagged]
    · rename_i f d' v' heq
      obtain ⟨hw, -⟩ := applyFills_error heq
      cases hw
      have hs := steady_disarm (d, v₁.discardAll (fresh.map (·.messageId))) DisarmReason.integrityViolation.text
      have hdis : (v₁.discardAll (fresh.map (·.messageId))).store.inbox = v.store.inbox := by
        have hold : ∀ id ∈ fresh.map (·.messageId), id ∉ v.store.inbox.map (·.messageId) := by
          intro id hid
          rw [← hrowIds] at hid
          obtain ⟨r, hr, rfl⟩ := List.mem_map.1 hid
          exact hnew r hr
        unfold Venue.discardAll
        rw [Store.discardAll_inbox v.store.inbox _ hold rows v₁.store hi fun r hr => (hrowRun r hr).2,
          List.filter_eq_nil_iff.2 fun r hr => by simpa using hfreshIds r hr, List.append_nil]
      exact ⟨fs, gs, h.of_books (hs.inbox.trans hdis) hs.ledger hs.runId⟩

/-! ### Everything else keeps the inbox, the ledger and the run -/

theorem enqueueIntent {w : World} (h : AppliedOnce c fs gs w) (i : Intent) : AppliedOnce c fs gs (enqueueIntent w i).2 := by
  obtain ⟨hd, -, hs | ⟨now, runId, key, json, b, he⟩⟩ := enqueueIntent_cases w i
  · exact h.of_books (by rw [hs]) (by rw [hd]) (by rw [hd])
  · exact h.of_books (Store.inbox_enqueue he) (by rw [hd]) (by rw [hd])

theorem enqueueAll (intents : List Intent) {w : World} (h : AppliedOnce c fs gs w) :
    AppliedOnce c fs gs (TradeDesk.enqueueAll w intents).2.2 := by
  induction intents generalizing w with
  | nil => exact h
  | cons i rest ih =>
    have h₁ := h.enqueueIntent i
    unfold TradeDesk.enqueueAll
    split
    · rename_i f w' heq
      rw [heq] at h₁
      exact h₁
    · rename_i queued _ w' heq
      rw [heq] at h₁
      exact ih h₁

end AppliedOnce

/-- The desk as a sink registers broker ids and orders, and keeps its ledger, its run and the inbox. -/
theorem onSubmitted_keeps : onSubmitted.Keeps fun d : Desk => (d.ledger, d.runId) := by
  rintro intent ack ⟨d, v⟩
  refine ⟨?_, Store.inbox_upsertMapping _ _ _⟩
  simp only [onSubmitted]
  split <;> rfl

theorem store_fillAll (v : Venue) (fills : List FillOrder) : (v.fillAll fills).2.store = v.store := by
  induction fills generalizing v with
  | nil => rfl
  | cons f rest ih => exact ih _

/-- Every action keeps the invariant, for the reports and ledger fills it has then. -/
theorem Action.apply_appliedOnce {c : Int64} {fs gs : List BrokerFill} (a : Action) {w : World}
    (h : AppliedOnce c fs gs w) : ∃ fs' gs', AppliedOnce c fs' gs' (a.apply w) := by
  cases a with
  | enqueue i => exact ⟨fs, gs, h.enqueueIntent i⟩
  | targets ts => exact ⟨fs, gs, h.enqueueAll _⟩
  | dispatch claimant batch =>
    exact ⟨fs, gs, h.keeps (keeps_dispatchOnce _ onSubmitted_keeps (w.1.gates w.2.now) claimant batch w)⟩
  | recover => exact ⟨fs, gs, h.keeps (keeps_recoverRun _ onSubmitted_keeps (w.1.gates w.2.now) w.1.runId w)⟩
  | sweep ttl => exact ⟨fs, gs, h.keeps (keeps_sweepStaleClaims _ onSubmitted_keeps _ ttl w)⟩
  | execute fills report =>
    have hf : AppliedOnce c fs gs (w.1, (w.2.fillAll fills).2) :=
      h.of_books (by rw [store_fillAll]) rfl rfl
    cases report
    · exact ⟨fs, gs, hf⟩
    · exact hf.ingest _
  | ingest fills => exact h.ingest fills
  | event orderId ev eventId => exact ⟨fs, gs, h.steady (steady_applyEvent w orderId ev eventId)⟩
  | cancel orderId => exact ⟨fs, gs, h.steady (steady_cancel w orderId)⟩
  | replace orderId qty limit tif => exact ⟨fs, gs, h.steady (steady_replace w orderId qty limit tif)⟩
  | marks m => exact ⟨fs, gs, h.of_books rfl rfl rfl⟩
  | arm => exact ⟨fs, gs, h.steady (steady_arm w)⟩
  | disarm reason => exact ⟨fs, gs, h.steady (steady_disarm w reason)⟩
  | reconcile => exact ⟨fs, gs, h.steady (steady_reconcile w)⟩
  | recordReconcile clean => exact ⟨fs, gs, h.of_books rfl rfl rfl⟩
  | advance ns => exact ⟨fs, gs, h.of_books rfl rfl rfl⟩
  | block reason => exact ⟨fs, gs, h.of_books rfl rfl rfl⟩
  | unblock => exact ⟨fs, gs, h.of_books rfl rfl rfl⟩
  | failNext message => exact ⟨fs, gs, h.of_books rfl rfl rfl⟩
  | lookupFail count => exact ⟨fs, gs, h.of_books rfl rfl rfl⟩

/-- Every session keeps the invariant, from the initial cash of its desk. -/
theorem session_appliedOnce (s : DeskSetup) (acts : List Action) :
    ∃ fs gs, AppliedOnce s.config.initialCash fs gs (Action.run s.start acts) :=
  Action.run_induction (P := fun w => ∃ fs gs, AppliedOnce s.config.initialCash fs gs w)
    (fun _ a ⟨_, _, h⟩ => a.apply_appliedOnce h) s.start acts ⟨[], [], AppliedOnce.start s⟩

/-- **Every fill is applied exactly once.** After any session, every inbox row belongs to the
desk's run and is applied; the rows record reports under distinct message ids; and the ledger's
log is one fill for each of those reports, in strictly increasing sequence order. -/
theorem session_applies_fills_once (s : DeskSetup) (acts : List Action) :
    let w := Action.run s.start acts
    (∀ r ∈ w.2.store.inbox, r.runId = w.1.runId ∧ r.appliedAt.isSome) ∧
      ∃ fs gs : List BrokerFill,
        w.2.store.inbox.map (fun r => (r.messageId, r.messageJson)) = fs.map (fun f => (f.messageId, f.encode)) ∧
        (fs.map (·.messageId)).Nodup ∧ gs.Perm fs ∧ gs.Pairwise (fun a b => a.seq < b.seq) ∧
        w.1.ledger.entries = gs.map fun f => .fill f.tagged.fill := by
  intro w
  obtain ⟨fs, gs, h⟩ := session_appliedOnce s acts
  refine ⟨fun r hr => ⟨h.run r hr, h.applied r hr⟩, fs, gs, h.rows, h.ids, h.perm, ?_, ?_⟩
  · have hinc := h.increasing
    rw [Ledger.Increasing, List.pairwise_map] at hinc
    exact hinc
  · rw [h.ledger, Ledger.entries_ofFills, Ledger.fillEntries, List.map_map]
    rfl

end TradeDesk
