import TradeDesk.Proofs.Desk.FillsOnce
import TradeDesk.Proofs.Json.RoundTrip
/-!
# A restart rebuilds the ledger

After a session, the inbox holds one applied row for each report the ledger took, and the ledger
is the one that took them in increasing order of their sequence numbers (`AppliedOnce`). A crash
may follow the recording of further reports, before they reach the ledger: their rows stand at
the end of the inbox, unapplied.

A restarted desk with the same run and cash replays the inbox. The applied rows decode to the
reports they were written from (`BrokerFill.decode_encode`) and go to the new ledger as one batch, which sorts them back into increasing order
(`Ledger.sortCanonical_of_perm`): the batch rebuilds the ledger the session ended with. The
unapplied rows are in doubt: they are appended one at a time in canonical order, each taken or
refused by the ledger on its own (`Ledger.appendEach`), and a refused one loses its row. So the
desk ends with the ledger of the session followed by the reports it took, and an inbox that
records exactly those reports, all applied: the invariant of a session again. A second restart
finds nothing in doubt and rebuilds the same ledger.
-/

namespace TradeDesk

/-! ### Reports appended one at a time -/

namespace Ledger

/-- Appends reports one at a time, in order, passing over those the ledger refuses: the ledger
after them, and the reports it took. -/
def appendEach (l : Ledger) : List BrokerFill → Ledger × List BrokerFill
  | [] => (l, [])
  | f :: rest =>
    match l.appendFillSeq f.tagged.fill f.seq with
    | .ok l' => ((l'.appendEach rest).1, f :: (l'.appendEach rest).2)
    | .error _ => l.appendEach rest

/-- Appending reports one at a time to a ledger of increasing valid fills takes some of them, in
order, and leaves the ledger of the fills and the reports taken, still increasing and valid. -/
theorem appendEach_ofFills (c : Int64) :
    ∀ (xs gs : List BrokerFill), Increasing (gs.map BrokerFill.tagged) → (∀ g ∈ gs, g.tagged.fill.check = none) →
      ((ofFills c (gs.map BrokerFill.tagged)).appendEach xs).1 =
          ofFills c ((gs ++ ((ofFills c (gs.map BrokerFill.tagged)).appendEach xs).2).map BrokerFill.tagged) ∧
        ((ofFills c (gs.map BrokerFill.tagged)).appendEach xs).2.Sublist xs ∧
        Increasing ((gs ++ ((ofFills c (gs.map BrokerFill.tagged)).appendEach xs).2).map BrokerFill.tagged) ∧
        ∀ f ∈ gs ++ ((ofFills c (gs.map BrokerFill.tagged)).appendEach xs).2, f.tagged.fill.check = none
  | [], gs, hinc, hval => by simpa [appendEach] using ⟨hinc, hval⟩
  | x :: rest, gs, hinc, hval => by
    cases h : (ofFills c (gs.map BrokerFill.tagged)).appendFillSeq x.tagged.fill x.seq with
    | error e =>
      obtain ⟨hl, hsub, hinc', hval'⟩ := appendEach_ofFills c rest gs hinc hval
      simp only [appendEach, h]
      exact ⟨hl, hsub.cons x, hinc', hval'⟩
    | ok l' =>
      obtain ⟨rfl, hchk, habove⟩ := appendFillSeq_ofFills h
      have hinc₁ : Increasing ((gs ++ [x]).map BrokerFill.tagged) := by
        rw [List.map_append]
        exact hinc.append (List.pairwise_singleton _ _) (by simpa using habove)
      have hval₁ : ∀ g ∈ gs ++ [x], g.tagged.fill.check = none := by
        intro g hg
        rcases List.mem_append.1 hg with hg | hg
        · exact hval g hg
        · rw [List.mem_singleton.1 hg]
          exact hchk
      have hmap : (gs ++ [x]).map BrokerFill.tagged = gs.map BrokerFill.tagged ++ [x.tagged] := List.map_append
      obtain ⟨hl, hsub, hinc', hval'⟩ := appendEach_ofFills c rest (gs ++ [x]) hinc₁ hval₁
      rw [hmap] at hl hsub hinc' hval'
      simp only [appendEach, h, List.append_assoc, List.singleton_append] at hl hinc' hval' ⊢
      exact ⟨hl, hsub.cons_cons x, hinc', hval'⟩

end Ledger

/-! ### Sorting the inbox -/

theorem books_restoreOrders (d : Desk) (s : Store) :
    (d.restoreOrders s).ledger = d.ledger ∧ (d.restoreOrders s).runId = d.runId ∧
      (d.restoreOrders s).replacing = d.replacing := by
  unfold Desk.restoreOrders
  refine List.foldlRecOn (motive := fun d' : Desk => d'.ledger = d.ledger ∧ d'.runId = d.runId ∧
    d'.replacing = d.replacing) s.mappings _ ⟨rfl, rfl, rfl⟩ ?_
  intro d' hd' e _
  split
  · exact hd'
  · split
    · exact hd'
    · split
      · exact hd'
      · exact hd'

/-- Applied rows of reports are replayed, in their order. -/
theorem sortInbox_applied (v v' : Venue) (rest : List InboxRow) {accepted doubt : List BrokerFill}
    (hrest : sortInbox v rest = (.ok (accepted, doubt), v')) :
    ∀ (rows : List InboxRow) (fills : List BrokerFill), rows.map (·.messageJson) = fills.map BrokerFill.encode →
      (∀ r ∈ rows, r.appliedAt.isSome) → sortInbox v (rows ++ rest) = (.ok (fills ++ accepted, doubt), v')
  | [], fills, htexts, _ => by
    rw [List.eq_nil_of_map_eq_nil htexts.symm]
    exact hrest
  | row :: rows, [], htexts, _ => by cases htexts
  | row :: rows, f :: fills, htexts, happ => by
    obtain ⟨hrow, htexts'⟩ := List.cons.inj htexts
    obtain ⟨t, ht⟩ := Option.isSome_iff_exists.1 (happ row List.mem_cons_self)
    have ih := sortInbox_applied v v' rest hrest rows fills htexts' fun r hr => happ r (List.mem_cons_of_mem _ hr)
    simp only [List.cons_append, sortInbox, hrow, BrokerFill.decode_encode f, ht, ih]

/-- Unapplied rows of reports are all in doubt, and none is discarded. -/
theorem sortInbox_unapplied (v : Venue) :
    ∀ (rows : List InboxRow) (fills : List BrokerFill), rows.map (·.messageJson) = fills.map BrokerFill.encode →
      (∀ r ∈ rows, r.appliedAt = none) → sortInbox v rows = (.ok ([], fills), v)
  | [], fills, htexts, _ => by
    rw [List.eq_nil_of_map_eq_nil htexts.symm]
    rfl
  | row :: rows, [], htexts, _ => by cases htexts
  | row :: rows, f :: fills, htexts, happ => by
    obtain ⟨hrow, htexts'⟩ := List.cons.inj htexts
    have ih := sortInbox_unapplied v rows fills htexts' fun r hr => happ r (List.mem_cons_of_mem _ hr)
    simp only [sortInbox, hrow, BrokerFill.decode_encode f, happ row List.mem_cons_self, ih]

/-! ### Replaying -/

theorem applyFills_of_accepts {w : World} {fills : List BrokerFill} {l' : Ledger}
    (h : w.1.ledger.applyCanonical (fills.map BrokerFill.tagged) = .ok l') :
    ∃ n w', applyFills w fills = (.ok n, w') ∧ w'.1.ledger = l' ∧ w'.1.runId = w.1.runId ∧
      w'.2.store.inbox = w.2.store.inbox.map fun r =>
        if r.messageId ∈ fills.map (·.messageId) then r.stamp w.2.now else r := by
  rcases hA : applyFills w fills with ⟨res, w'⟩
  cases res with
  | error f =>
    obtain ⟨-, e, he⟩ := applyFills_error hA
    rw [h] at he
    cases he
  | ok n =>
    obtain ⟨hl, hr, hinb⟩ := applyFills_ok hA
    rw [h] at hl
    exact ⟨n, w', rfl, (Except.ok.inj hl).symm, hr, hinb⟩

/-- What an inbox row records of a message: its run, id and text. -/
def InboxRow.content (r : InboxRow) : String × String × String := (r.runId, r.messageId, r.messageJson)

@[simp] theorem InboxRow.content_stamp (now : Instant) (r : InboxRow) : (r.stamp now).content = r.content := rfl

/-- The inbox while messages in doubt are replayed: the rows `old`, and after them, in their
order, the rows of `recorded` whose ids are pending or taken, exactly the taken ones applied. -/
def Pending (old recorded : List InboxRow) (pending taken : List String) (inbox : List InboxRow) : Prop :=
  ∃ rows, inbox = old ++ rows ∧
    rows.map InboxRow.content =
      (recorded.filter fun r => r.messageId ∈ pending ∨ r.messageId ∈ taken).map InboxRow.content ∧
    ∀ r ∈ rows, r.appliedAt.isSome ↔ r.messageId ∈ taken

section Pending

variable {old recorded : List InboxRow} {x : String} {pending taken : List String} {inbox : List InboxRow}

theorem Pending.take (h : Pending old recorded (x :: pending) taken inbox) (hold : ∀ r ∈ old, r.appliedAt.isSome)
    (now : Instant) :
    Pending old recorded pending (taken ++ [x]) (inbox.map fun r => if r.messageId ∈ [x] then r.stamp now else r) := by
  obtain ⟨rows, rfl, hcontent, happ⟩ := h
  refine ⟨rows.map fun r => if r.messageId ∈ [x] then r.stamp now else r, ?_, ?_, ?_⟩
  · -- the old rows are applied already, so a stamp leaves them as they are
    rw [List.map_append, Store.stamped_of_applied hold]
  · rw [Store.map_stamped InboxRow.content (InboxRow.content_stamp now), hcontent]
    congr 1
    refine List.filter_congr fun r _ => decide_eq_decide.2 ?_
    simp only [List.mem_cons, List.mem_append, List.not_mem_nil, or_false]
    tauto
  · intro r hr
    obtain ⟨r₀, hr₀, rfl⟩ := List.mem_map.1 hr
    by_cases hx : r₀.messageId = x
    · simp [hx, InboxRow.isSome_appliedAt_stamp]
    · simp only [List.mem_singleton, hx, if_false, List.mem_append, or_false]
      exact happ r₀ hr₀

theorem Pending.unapplied (h : Pending old recorded (x :: pending) taken inbox) (hold : x ∉ old.map (·.messageId))
    (hx : x ∉ taken) : ∀ r ∈ inbox, r.messageId = x → r.appliedAt = none := by
  obtain ⟨rows, rfl, -, happ⟩ := h
  intro r hr hid
  rcases List.mem_append.1 hr with ho | hn
  · exact absurd (hid ▸ List.mem_map_of_mem ho) hold
  · cases hsome : r.appliedAt with
    | none => rfl
    | some t => exact absurd (hid ▸ (happ r hn).1 (by simp [hsome])) hx

theorem Pending.drop (h : Pending old recorded (x :: pending) taken inbox) (hold : x ∉ old.map (·.messageId))
    (hxp : x ∉ pending) (hx : x ∉ taken) : Pending old recorded pending taken (inbox.filter (·.messageId ≠ x)) := by
  obtain ⟨rows, rfl, hcontent, happ⟩ := h
  refine ⟨rows.filter (·.messageId ≠ x), ?_, ?_, fun r hr => happ r (List.mem_filter.1 hr).1⟩
  · rw [List.filter_append]
    congr 1
    exact List.filter_eq_self.2 fun r hr => by
      simpa using fun he : r.messageId = x => hold (he ▸ List.mem_map_of_mem hr)
  · have hfilter : (rows.filter (·.messageId ≠ x)).map InboxRow.content =
        (rows.map InboxRow.content).filter fun c => c.2.1 ≠ x := by
      rw [List.filter_map]
      rfl
    rw [hfilter, hcontent, List.filter_map, List.filter_filter]
    congr 1
    refine List.filter_congr fun r _ => ?_
    simp only [Function.comp, InboxRow.content, List.mem_cons]
    by_cases hr : r.messageId = x
    · simp [hr, hxp, hx]
    · simp [hr]

end Pending

/-- **Replaying the messages in doubt** appends them to the ledger one at a time: the taken ones
are stamped and the refused ones lose their rows. -/
theorem applyInDoubt_spec (old recorded : List InboxRow) (hold : ∀ r ∈ old, r.appliedAt.isSome) :
    ∀ (xs : List BrokerFill) (taken : List String) (w : World),
      Pending old recorded (xs.map (·.messageId)) taken w.2.store.inbox → (xs.map (·.messageId)).Nodup →
      (∀ x ∈ xs, x.messageId ∉ taken) → (∀ x ∈ xs, x.messageId ∉ old.map (·.messageId)) →
        (applyInDoubt w xs).1.ledger = (w.1.ledger.appendEach xs).1 ∧
        (applyInDoubt w xs).1.runId = w.1.runId ∧
        Pending old recorded [] (taken ++ (w.1.ledger.appendEach xs).2.map (·.messageId))
          (applyInDoubt w xs).2.store.inbox
  | [], taken, w, h, _, _, _ => by simpa [applyInDoubt, Ledger.appendEach] using h
  | x :: rest, taken, w, h, hnd, htaken, hnew => by
    obtain ⟨hxrest, hnd'⟩ := List.nodup_cons.1 hnd
    have hx := htaken x List.mem_cons_self
    have hxold := hnew x List.mem_cons_self
    rcases hA : applyFills w [x] with ⟨res, w'⟩
    cases res with
    | ok n =>
      obtain ⟨hl, hr, hinb⟩ := applyFills_ok hA
      have happend : w.1.ledger.appendFillSeq x.tagged.fill x.seq = .ok w'.1.ledger :=
        Ledger.applyCanonical_singleton.1 hl
      have hP : Pending old recorded (rest.map (·.messageId)) (taken ++ [x.messageId]) w'.2.store.inbox := by
        rw [hinb]
        exact Pending.take h hold w.2.now
      obtain ⟨ihl, ihr, ihp⟩ := applyInDoubt_spec old recorded hold rest (taken ++ [x.messageId]) w' hP hnd'
        (fun y hy => by
          simp only [List.mem_append, List.mem_singleton, not_or]
          exact ⟨htaken y (List.mem_cons_of_mem _ hy), fun he => hxrest (List.mem_map.2 ⟨y, hy, he⟩)⟩)
        (fun y hy => hnew y (List.mem_cons_of_mem _ hy))
      simp only [applyInDoubt, hA, Ledger.appendEach, happend, List.map_cons, List.append_assoc,
        List.singleton_append] at ihl ihr ihp ⊢
      exact ⟨ihl, ihr.trans hr, ihp⟩
    | error f =>
      obtain ⟨hw, e, he⟩ := applyFills_error hA
      rw [hw] at hA
      simp only [List.map_cons, List.map_nil] at he
      have hrefused : ∃ e', w.1.ledger.appendFillSeq x.tagged.fill x.seq = .error e' := by
        cases happ : w.1.ledger.appendFillSeq x.tagged.fill x.seq with
        | error e' => exact ⟨e', rfl⟩
        | ok l' =>
          have := Ledger.applyCanonical_singleton.2 happ
          rw [he] at this
          cases this
      obtain ⟨e', happend⟩ := hrefused
      obtain ⟨d, v⟩ := w
      have hdiscard : (v.discardAll [x.messageId]).store.inbox = v.store.inbox.filter (·.messageId ≠ x.messageId) :=
        Store.discard_inbox (Pending.unapplied h hxold hx)
      have hP : Pending old recorded (rest.map (·.messageId)) taken (v.discardAll [x.messageId]).store.inbox := by
        rw [hdiscard]
        exact Pending.drop h hxold hxrest hx
      obtain ⟨ihl, ihr, ihp⟩ := applyInDoubt_spec old recorded hold rest taken (d, v.discardAll [x.messageId]) hP hnd'
        (fun y hy => htaken y (List.mem_cons_of_mem _ hy)) (fun y hy => hnew y (List.mem_cons_of_mem _ hy))
      simp only [applyInDoubt, hA, Ledger.appendEach, happend] at ihl ihr ihp ⊢
      exact ⟨ihl, ihr, ihp⟩


/-- When nothing is pending, the rows after `old` are those of the taken ids, all applied. -/
theorem Pending.settled {old recorded : List InboxRow} {taken : List String} {inbox : List InboxRow}
    (h : Pending old recorded [] taken inbox) :
    ∃ rows, inbox = old ++ rows ∧
      rows.map InboxRow.content = (recorded.filter fun r => r.messageId ∈ taken).map InboxRow.content ∧
      ∀ r ∈ rows, r.appliedAt.isSome := by
  obtain ⟨rows, hinbox, hcontent, happ⟩ := h
  simp only [List.not_mem_nil, false_or] at hcontent
  refine ⟨rows, hinbox, hcontent, fun r hr => (happ r hr).2 ?_⟩
  obtain ⟨r₀, hr₀, he⟩ := List.mem_map.1 (hcontent ▸ List.mem_map_of_mem (f := InboxRow.content) hr)
  have hid : r₀.messageId = r.messageId := congrArg (fun c => c.2.1) he
  simpa [← hid] using (List.mem_filter.1 hr₀).2

/-! ### Restarting after a session -/

/-- A restore whose inbox sorts and whose accepted reports are applied goes on to the reports in
doubt, in canonical order. -/
theorem restore_of_replay {d : Desk} {v v' : Venue} {accepted doubt : List BrokerFill} {n : Nat} {w₁ : World}
    (hsort : sortInbox v (v.store.inboxOf (d.restoreOrders v.store).runId) = (.ok (accepted, doubt), v'))
    (happly : applyFills (d.restoreOrders v.store, v') accepted = (.ok n, w₁)) :
    restore (d, v) = (.ok (), applyInDoubt w₁ (BrokerFill.sortCanonical doubt)) := by
  simp only [restore, hsort, happly]

/-- **The applied rows rebuild the ledger.** A desk restarted over the inbox of a session, followed
by unapplied rows of new reports of its run, replays the session's reports as one batch: the batch
rebuilds the session's ledger and stamps only rows applied already. The new reports are left in
doubt, in canonical order. -/
theorem restart_replays {c : DeskConfig} {fs gs : List BrokerFill} {w : World}
    (hA : AppliedOnce c.initialCash fs gs w) (hrun : c.runId = w.1.runId) (d₀ : Desk) {v : Venue}
    {rows : List InboxRow} {fresh : List BrokerFill} (hinbox : v.store.inbox = w.2.store.inbox ++ rows)
    (htexts : rows.map (·.messageJson) = fresh.map BrokerFill.encode)
    (hrows : ∀ r ∈ rows, r.runId = w.1.runId ∧ r.appliedAt = none)
    (hnew : ∀ r ∈ rows, r.messageId ∉ w.2.store.inbox.map (·.messageId)) :
    ∃ w₁ : World, restart c (d₀, v) = (.ok (), applyInDoubt w₁ (BrokerFill.sortCanonical fresh)) ∧
      w₁.1.ledger = w.1.ledger ∧ w₁.1.runId = w.1.runId ∧ w₁.2.store.inbox = w.2.store.inbox ++ rows := by
  obtain ⟨holdIds, holdTexts⟩ := ids_texts_of_rows hA.rows
  set d := (Desk.boot c v.store.arm).restoreOrders v.store with hd
  obtain ⟨hdl, hdr, -⟩ := books_restoreOrders (Desk.boot c v.store.arm) v.store
  have hrunId : d.runId = w.1.runId := by
    rw [hd, hdr]
    exact hrun
  -- every row is of the run, so the whole inbox is sorted: the old rows accepted, the new in doubt
  have hinboxOf : v.store.inboxOf d.runId = w.2.store.inbox ++ rows := by
    rw [Store.inboxOf, hinbox, List.filter_eq_self.2]
    intro r hr
    rw [hrunId]
    rcases List.mem_append.1 hr with ho | hn
    · simpa using hA.run r ho
    · simpa using (hrows r hn).1
  have hsort : sortInbox v (v.store.inboxOf d.runId) = (.ok (fs, fresh), v) := by
    rw [hinboxOf, ← List.append_nil fs]
    exact sortInbox_applied v v rows (sortInbox_unapplied v rows fresh htexts fun r hr => (hrows r hr).2)
      w.2.store.inbox fs holdTexts hA.applied
  -- the accepted reports, sorted, are the session's fills in their order: they rebuild its ledger
  have hreplay : d.ledger.applyCanonical (fs.map BrokerFill.tagged) = .ok w.1.ledger := by
    have hsorted : TaggedFill.sortCanonical (fs.map BrokerFill.tagged) = gs.map BrokerFill.tagged :=
      Ledger.sortCanonical_of_perm hA.increasing (hA.perm.symm.map _)
    have hcheck : Ledger.checkBatch none (gs.map BrokerFill.tagged) = none := by
      refine Ledger.checkBatch_eq_none_iff.2 ⟨?_, hA.increasing, fun _ _ n hn => by cases hn⟩
      intro tf htf
      obtain ⟨g, hg, rfl⟩ := List.mem_map.1 htf
      exact hA.valid g hg
    rw [hdl, show (Desk.boot c v.store.arm).ledger = Ledger.ofFills c.initialCash [] from rfl,
      Ledger.applyCanonical_ofFills_of_checkBatch (by rw [hsorted]; exact hcheck), hsorted, List.nil_append, hA.ledger]
  obtain ⟨n, w₁, happly, hl₁, hr₁, hinbox₁⟩ := applyFills_of_accepts (w := (d, v)) hreplay
  refine ⟨w₁, restore_of_replay hsort happly, hl₁, hr₁.trans hrunId, ?_⟩
  -- the batch stamps rows applied already, and no new row has one of its ids
  rw [hinbox₁, show (d, v).2.store.inbox = w.2.store.inbox ++ rows from hinbox, List.map_append,
    Store.stamped_of_applied hA.applied, Store.stamped_of_not_mem fun r hr hmem => hnew r hr (holdIds ▸ hmem)]

/-- **The replay settles.** Once every report in doubt is taken or refused, the inbox records the
session's reports and after them the new ones taken, all applied; with a ledger that took the same
fills in increasing order, that is the invariant of a session again. -/
theorem AppliedOnce.settle {c : Int64} {fs gs : List BrokerFill} {w w₂ : World} (hA : AppliedOnce c fs gs w)
    {rows : List InboxRow} {fresh taken : List BrokerFill}
    (htexts : rows.map (fun r => (r.messageId, r.messageJson)) = fresh.map fun f => (f.messageId, f.encode))
    (hruns : ∀ r ∈ rows, r.runId = w.1.runId) (hnd : (rows.map (·.messageId)).Nodup)
    (hnew : ∀ r ∈ rows, r.messageId ∉ w.2.store.inbox.map (·.messageId))
    (hsub : ∀ f ∈ taken, f ∈ fresh) (htakenNd : taken.Nodup)
    (hP : Pending w.2.store.inbox rows [] (taken.map (·.messageId)) w₂.2.store.inbox)
    (hrun : w₂.1.runId = w.1.runId) (hinc : Ledger.Increasing ((gs ++ taken).map BrokerFill.tagged))
    (hval : ∀ f ∈ gs ++ taken, f.tagged.fill.check = none)
    (hl : w₂.1.ledger = Ledger.ofFills c ((gs ++ taken).map BrokerFill.tagged)) :
    AppliedOnce c (fs ++ fresh.filter (· ∈ taken)) (gs ++ taken) w₂ := by
  obtain ⟨hrowIds, -⟩ := ids_texts_of_rows htexts
  obtain ⟨holdIds, -⟩ := ids_texts_of_rows hA.rows
  have hfreshIds : (fresh.map (·.messageId)).Nodup := hrowIds ▸ hnd
  -- a new report is taken exactly when its id is, the new ids being distinct
  have hmemTaken : ∀ f ∈ fresh, f.messageId ∈ taken.map (·.messageId) ↔ f ∈ taken := by
    intro f hf
    constructor
    · intro hid
      obtain ⟨t, ht, hteq⟩ := List.mem_map.1 hid
      rw [← List.inj_on_of_nodup_map hfreshIds (hsub t ht) hf hteq]
      exact ht
    · exact List.mem_map_of_mem
  obtain ⟨rows₂, hinbox₂, hcontent₂, happ₂⟩ := hP.settled
  have hleft : rows₂.map (fun r => (r.messageId, r.messageJson)) =
      (fresh.filter (· ∈ taken)).map fun f => (f.messageId, f.encode) := by
    have h₁ := congrArg (List.map fun c : String × String × String => (c.2.1, c.2.2)) hcontent₂
    simp only [List.map_map, Function.comp_def, InboxRow.content] at h₁
    rw [h₁]
    have h₂ := congrArg (List.filter fun p : String × String => p.1 ∈ taken.map (·.messageId)) htexts
    rw [List.filter_map, List.filter_map] at h₂
    refine h₂.trans ?_
    congr 1
    exact List.filter_congr fun f hf => by simpa using hmemTaken f hf
  have hfreshNd : fresh.Nodup := List.Nodup.of_map _ hfreshIds
  refine hA.append hinbox₂ hleft (hfreshIds.sublist (List.filter_sublist.map _)) ?_ ?_ happ₂ hrun
    ((List.perm_ext_iff_of_nodup htakenNd (hfreshNd.filter _)).2 fun f => ?_) hinc hval hl
  · intro f hf hmem
    obtain ⟨r, hr, hid⟩ := List.mem_map.1 (hrowIds ▸ List.mem_map_of_mem (List.mem_filter.1 hf).1 :
      f.messageId ∈ rows.map (·.messageId))
    exact hnew r hr (holdIds ▸ hid ▸ hmem)
  · intro r hr
    obtain ⟨r₀, hr₀, he⟩ := List.mem_map.1 (hcontent₂ ▸ List.mem_map_of_mem (f := InboxRow.content) hr)
    have hrun₀ : r₀.runId = r.runId := congrArg Prod.fst he
    rw [← hrun₀]
    exact hruns r₀ (List.mem_filter.1 hr₀).1
  · simp only [List.mem_filter, decide_eq_true_eq]
    exact ⟨fun h => ⟨hsub f h, h⟩, fun h => h.2⟩

/-- **Restarting after a crash.** After a session, reports recorded for its run and never applied
are replayed by a restart: the desk restores without fault, with the session's ledger followed by
the recorded reports appended one at a time in canonical order, and the invariant of a session
holds again for the reports it took. -/
theorem restart_recorded {c : DeskConfig} {fs gs : List BrokerFill} {w : World}
    (hA : AppliedOnce c.initialCash fs gs w) (hrun : c.runId = w.1.runId) (extras : List BrokerFill) :
    let recorded := w.2.recordFills w.1.runId extras
    let replay := w.1.ledger.appendEach (BrokerFill.sortCanonical recorded.1)
    (restart c (w.1, recorded.2.2)).1 = .ok () ∧ (restart c (w.1, recorded.2.2)).2.1.ledger = replay.1 ∧
      (restart c (w.1, recorded.2.2)).2.1.runId = w.1.runId ∧
      AppliedOnce c.initialCash (fs ++ recorded.1.filter (· ∈ replay.2)) (gs ++ replay.2)
        (restart c (w.1, recorded.2.2)).2 := by
  dsimp only
  obtain ⟨rows, hinbox, hrows, hnd, hnew, hsub⟩ := recordFills_spec w.2 w.1.runId extras
  generalize w.2.recordFills w.1.runId extras = recorded at hinbox hrows hsub ⊢
  obtain ⟨hrowPairs, hrowRun⟩ := recorded_rows hrows
  obtain ⟨hrowIds, hrowTexts⟩ := ids_texts_of_rows hrowPairs
  obtain ⟨w₁, hrestart, hl₁, hr₁, hinbox₁⟩ := restart_replays hA hrun w.1 hinbox hrowTexts hrowRun hnew
  have hpermIds : ((BrokerFill.sortCanonical recorded.1).map (·.messageId)).Perm (rows.map (·.messageId)) := by
    rw [hrowIds]
    exact (BrokerFill.sortCanonical_perm _).map _
  have hpending : Pending w.2.store.inbox rows ((BrokerFill.sortCanonical recorded.1).map (·.messageId)) []
      w₁.2.store.inbox := by
    refine ⟨rows, hinbox₁, ?_, fun r hr => ?_⟩
    · rw [List.filter_eq_self.2 fun r hr => by simpa using hpermIds.mem_iff.2 (List.mem_map_of_mem hr)]
    · simp [(hrowRun r hr).2]
  obtain ⟨hl₂, hr₂, hpending₂⟩ := applyInDoubt_spec w.2.store.inbox rows hA.applied _ [] w₁ hpending
    (hpermIds.nodup_iff.2 hnd) (fun _ _ => List.not_mem_nil)
    (fun x hx => by
      obtain ⟨r, hr, hid⟩ := List.mem_map.1 (hpermIds.mem_iff.1 (List.mem_map_of_mem hx))
      exact hid ▸ hnew r hr)
  rw [hl₁, hA.ledger] at hl₂ hpending₂
  rw [List.nil_append] at hpending₂
  rw [hrestart, hA.ledger]
  refine ⟨rfl, hl₂, hr₂.trans hr₁, ?_⟩
  obtain ⟨hlT, hsubT, hincT, hvalT⟩ := Ledger.appendEach_ofFills c.initialCash (BrokerFill.sortCanonical recorded.1) gs
    hA.increasing hA.valid
  have hrecNodup : recorded.1.Nodup := List.Nodup.of_map _ (hrowIds ▸ hnd)
  exact hA.settle hrowPairs (fun r hr => (hrowRun r hr).1) hnd hnew
    (fun f hf => (BrokerFill.sortCanonical_perm _).mem_iff.1 (hsubT.subset hf))
    (hsubT.nodup ((BrokerFill.sortCanonical_perm _).nodup_iff.2 hrecNodup)) hpending₂ (hr₂.trans hr₁) hincT hvalT
    (hl₂.trans hlT)

/-- **A restart rebuilds the same ledger.** After any session, and reports recorded for its run
but never applied, a desk restarted with the same run and cash restores without fault and leaves
no row of the run unapplied. Its ledger is the session's ledger followed by the recorded reports
appended one at a time in canonical order, passing over those the ledger refuses; the inbox keeps
the session's rows and, after them, exactly the rows of the reports taken. A second restart over
the store it leaves restores the same ledger again. -/
theorem restart_rebuilds_ledger (s : DeskSetup) (acts : List Action) (extras : List BrokerFill) (c : DeskConfig)
    (hrun : c.runId = (Action.run s.start acts).1.runId) (hcash : c.initialCash = s.config.initialCash) :
    let w := Action.run s.start acts
    let recorded := w.2.recordFills w.1.runId extras
    let replay := w.1.ledger.appendEach (BrokerFill.sortCanonical recorded.1)
    let b := restart c (w.1, recorded.2.2)
    b.1 = .ok () ∧ b.2.2.store.unappliedOf c.runId = [] ∧ b.2.1.ledger = replay.1 ∧
      b.2.2.store.inbox.map (fun r => (r.messageId, r.messageJson)) =
        w.2.store.inbox.map (fun r => (r.messageId, r.messageJson)) ++
          (recorded.1.filter (· ∈ replay.2)).map (fun f => (f.messageId, f.encode)) ∧
      (restart c b.2).1 = .ok () ∧ (restart c b.2).2.1.ledger = b.2.1.ledger := by
  dsimp only
  obtain ⟨fs, gs, hA⟩ := session_appliedOnce s acts
  rw [← hcash] at hA
  obtain ⟨hok, hl, hr, hB⟩ := restart_recorded hA hrun extras
  -- the second restart records no report, so it has none in doubt
  obtain ⟨hok₂, hl₂, -, -⟩ := restart_recorded hB (hrun.trans hr.symm) []
  have hnil : BrokerFill.sortCanonical [] = [] := List.mergeSort_nil
  simp only [Venue.recordFills, hnil, Ledger.appendEach] at hok₂ hl₂
  refine ⟨hok, ?_, hl, ?_, hok₂, hl₂⟩
  · refine List.filter_eq_nil_iff.2 fun r hr => ?_
    have happ := Option.isSome_iff_ne_none.1 (hB.applied r hr)
    simp [happ]
  · rw [hB.rows, List.map_append, hA.rows]

/-- A desk that did nothing, then one buy report recorded and never applied. -/
theorem restart_rebuilds_ledger_of_one_report :
    let c : DeskConfig := { runId := "run", initialCash := 1000, fresh := 0, maxGross := 0, maxPerSymbol := 0 }
    let s : DeskSetup := { config := c }
    let extras : List BrokerFill :=
      [{ messageId := "m", seq := 1, orderId := "o", symbol := "ABC", side := .buy, qty := 1, price := 10 }]
    (c.runId = (Action.run s.start []).1.runId ∧ c.initialCash = s.config.initialCash) ∧
    let w := Action.run s.start []
    let recorded := w.2.recordFills w.1.runId extras
    let replay := w.1.ledger.appendEach (BrokerFill.sortCanonical recorded.1)
    let b := restart c (w.1, recorded.2.2)
    b.1 = .ok () ∧ b.2.2.store.unappliedOf c.runId = [] ∧ b.2.1.ledger = replay.1 ∧
      b.2.2.store.inbox.map (fun r => (r.messageId, r.messageJson)) =
        w.2.store.inbox.map (fun r => (r.messageId, r.messageJson)) ++
          (recorded.1.filter (· ∈ replay.2)).map (fun f => (f.messageId, f.encode)) ∧
      (restart c b.2).1 = .ok () ∧ (restart c b.2).2.1.ledger = b.2.1.ledger :=
  ⟨⟨rfl, rfl⟩, restart_rebuilds_ledger _ [] _ _ rfl rfl⟩

end TradeDesk
