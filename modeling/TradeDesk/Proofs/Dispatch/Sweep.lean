import TradeDesk.Proofs.Dispatch.Recovery
/-!
# What the stale-claim sweep does

A dispatcher that dies between claiming a row and sending it leaves the row claimed. The sweep
picks out the rows claimed strictly before a cutoff (`OutboxRow.claimedBefore`) and asks the broker
about each one; it never submits, cancels or replaces an order. With every lookup answered and a
sink that takes every report, each stale row falls in one class, read off the broker's book:

* the broker lacks its key: the claim is given back, and the row is pending again with no claimant
  and no claim time (`sweepRows_cons_of_unheld`);
* the broker holds it and its intent decodes: the row is completed with the broker's id, ending
  acked (`sweepRows_cons_of_held`);
* the broker holds it and its intent does not decode: the row stays claimed
  (`sweepRows_cons_of_held_undecodable`).

The walk (`sweepRows_pass`) follows `recoverRows_pass` with a simpler state: a lookup changes
nothing, so every row is judged against the book at the start. The sweep reads its own clock
`now`, puts the cutoff at `now − ttl` for every `ttl`, the least word included, and stamps what it
finds at the broker with `now` (`sweepStaleClaims_settles`).
-/

namespace TradeDesk

namespace OutboxRow

/-- A row claimed strictly before `cutoff`: the rows the sweep reads. -/
def claimedBefore (cutoff : Instant) (r : OutboxRow) : Bool :=
  r.status == .claimed && r.claimedAt.any (· < cutoff)

/-- Whether the book `b` holds an order under the row's key. -/
def heldBy (b : Paper) (r : OutboxRow) : Bool := (b.byClient? r.key).isSome

/-- A claimed row given back: pending, with no claimant and no claim time. -/
def released (r : OutboxRow) : OutboxRow := { r with status := .pending, claimedBy := none, claimedAt := none }

theorem claimedBefore_iff {cutoff : Instant} {r : OutboxRow} :
    r.claimedBefore cutoff = true ↔ r.status = .claimed ∧ ∃ t, r.claimedAt = some t ∧ t < cutoff := by
  simp [claimedBefore, Option.any_eq_true]

end OutboxRow

namespace Store

theorem staleClaims_eq (s : Store) (cutoff : Instant) : s.staleClaims cutoff = s.outbox.filter (·.claimedBefore cutoff) :=
  rfl

theorem row?_release_self {s : Store} {r : OutboxRow} (hr : s.row? r.key = some r) (hc : r.status = .claimed) :
    (s.release r.key).2.row? r.key = some r.released :=
  row?_transition_self keepsKey_release hr (if_pos hc)

theorem keys_release (s : Store) (k : String) : (s.release k).2.keys = s.keys :=
  keys_transition keepsKey_release

end Store

/-! ### One row -/

section Row

variable {σ : Type} {sink : Sink σ} {now : Instant} {row : OutboxRow} {rest : List OutboxRow} {rep : RecoveryReport}

/-- A claimed row the broker lacks is released. -/
theorem sweepRows_cons_of_unheld {w : σ × Venue} (hl : w.2.broker.lookupOutages = 0)
    (hn : w.2.broker.byClient? row.key = none) (hr : w.2.store.row? row.key = some row) (hc : row.status = .claimed) :
    sweepRows sink now (row :: rest) rep w =
      sweepRows sink now rest { rep with inspected := rep.inspected + 1, released := rep.released + 1 }
        (w.1, { w.2 with store := (w.2.store.release row.key).2 }) := by
  simp [sweepRows, Venue.lookup_of_available hl, hn, Store.release_of_claimed hr hc]

/-- A row the broker holds whose intent does not decode stays as it is. -/
theorem sweepRows_cons_of_held_undecodable (hdec : row.decodes = false) {w : σ × Venue}
    (hl : w.2.broker.lookupOutages = 0) {o : PaperOrder} (ho : w.2.broker.byClient? row.key = some o) :
    sweepRows sink now (row :: rest) rep w =
      sweepRows sink now rest { rep with inspected := rep.inspected + 1, deferred := rep.deferred + 1 } w := by
  cases hi : Intent.ofStored row.id row.orderJson with
  | error f => simp [sweepRows, Venue.lookup_of_available hl, ho, hi]
  | ok i => rw [OutboxRow.decodes, hi] at hdec; cases hdec

/-- A row the broker holds whose intent decodes is completed with the broker's id, and the
recorder is told. -/
theorem sweepRows_cons_of_held {i : Intent} (hi : Intent.ofStored row.id row.orderJson = .ok i) {rec : Recorder}
    (hrec : rec.failNext = none) {v : Venue} (hl : v.broker.lookupOutages = 0) {o : PaperOrder}
    (ho : v.broker.byClient? row.key = some o) :
    sweepRows Recorder.sink now (row :: rest) rep (rec, v) =
      sweepRows Recorder.sink now rest { rep with inspected := rep.inspected + 1, acked := rep.acked + 1 }
        ({ rec with log := rec.log ++ [(row.submission, recoveredAck o.brokerId now)] },
          (v.markSent row.key).markAcked row.key) := by
  simp [sweepRows, Venue.lookup_of_available hl, ho, hi, complete_recorder hrec, OutboxRow.submission_of_ofStored hi]

end Row

/-! ### A walk over stale claims -/

/-- What a sweep walk by the clock `now` over rows `rows` does, from report `rep`, recorder `rec` and
venue `v`, ending at `out`. The venue changes only in its outbox, and only at the keys of the rows:
each row the broker lacks is released, each row it holds is acked if its intent decodes and left
otherwise. The recorder is told, in order, of the rows acked, each with the broker's id. -/
structure SweepPass (now : Instant) (rows : List OutboxRow) (rep : RecoveryReport) (rec : Recorder) (v : Venue)
    (out : Except Fault RecoveryReport × Recorder × Venue) : Prop where
  /-- The report counts each class of row. -/
  result : out.1 = .ok { rep with
    inspected := rep.inspected + rows.length,
    released := rep.released + (rows.filter fun r => !r.heldBy v.broker).length,
    acked := rep.acked + (rows.filter fun r => r.heldBy v.broker && r.decodes).length,
    deferred := rep.deferred + (rows.filter fun r => r.heldBy v.broker && !r.decodes).length }
  released : ∀ r ∈ rows, r.heldBy v.broker = false → out.2.2.store.row? r.key = some r.released
  acked : ∀ r ∈ rows, r.heldBy v.broker = true → r.decodes = true → out.2.2.store.row? r.key = some (r.ackedAt v.now)
  kept : ∀ r ∈ rows, r.heldBy v.broker = true → r.decodes = false → out.2.2.store.row? r.key = some r
  frame : ∀ k ∉ rows.map (·.key), out.2.2.store.row? k = v.store.row? k
  keys : out.2.2.store.keys = v.store.keys
  /-- No broker call but lookups, and no clock or id moves. -/
  venue : out.2.2 = { v with store := out.2.2.store }
  told : ∃ L : List (Intent × BrokerAck), out.2.1 = { rec with log := rec.log ++ L } ∧
    L.map Prod.fst = (rows.filter fun r => r.heldBy v.broker && r.decodes).map (·.submission) ∧
    ∀ e ∈ L, ∃ o, v.broker.byClient? e.1.key = some o ∧ e.2 = recoveredAck o.brokerId now

namespace SweepPass

theorem nil (now : Instant) (rep : RecoveryReport) (rec : Recorder) (v : Venue) :
    SweepPass now [] rep rec v (.ok rep, rec, v) where
  result := by simp
  released _ h := by cases h
  acked _ h := by cases h
  kept _ h := by cases h
  frame _ _ := rfl
  keys := rfl
  venue := rfl
  told := ⟨[], by simp, rfl, by simp⟩

variable {now : Instant} {row : OutboxRow} {rest : List OutboxRow} {rep : RecoveryReport} {rec : Recorder}
  {v : Venue} {out : Except Fault RecoveryReport × Recorder × Venue}

/-- A claimed row the broker lacks, released ahead of the walk over the rest. -/
theorem cons_released
    (h : SweepPass now rest { rep with inspected := rep.inspected + 1, released := rep.released + 1 } rec
      { v with store := (v.store.release row.key).2 } out)
    (hn : row.heldBy v.broker = false) (hrow : v.store.row? row.key = some row) (hc : row.status = .claimed)
    (hnot : row.key ∉ rest.map (·.key)) :
    SweepPass now (row :: rest) rep rec v out where
  result := by
    rw [h.result]
    simp only [List.filter_cons, hn, Bool.not_false, Bool.false_and, Bool.false_eq_true, ↓reduceIte,
      List.length_cons, Except.ok.injEq, RecoveryReport.mk.injEq, true_and, and_true]
    constructor <;> omega
  released r hr hn' := by
    rcases List.mem_cons.1 hr with rfl | hr
    · rw [h.frame _ hnot]
      exact Store.row?_release_self hrow hc
    · exact h.released r hr hn'
  acked r hr hh := by
    rcases List.mem_cons.1 hr with rfl | hr
    · rw [hn] at hh; cases hh
    · exact h.acked r hr hh
  kept r hr hh := by
    rcases List.mem_cons.1 hr with rfl | hr
    · rw [hn] at hh; cases hh
    · exact h.kept r hr hh
  frame := Store.row?_frame_cons (fun _ hk => Store.row?_release_of_ne v.store hk) h.frame
  keys := by rw [h.keys]; exact Store.keys_release v.store row.key
  venue := h.venue
  told := by simpa [hn] using h.told

/-- A row the broker holds whose intent does not decode, left ahead of the walk over the rest. -/
theorem cons_kept
    (h : SweepPass now rest { rep with inspected := rep.inspected + 1, deferred := rep.deferred + 1 } rec v out)
    (hh : row.heldBy v.broker = true) (hdec : row.decodes = false) (hrow : v.store.row? row.key = some row)
    (hnot : row.key ∉ rest.map (·.key)) :
    SweepPass now (row :: rest) rep rec v out where
  result := by
    rw [h.result]
    simp only [List.filter_cons, hh, hdec, Bool.not_true, Bool.not_false, Bool.and_false, Bool.and_true,
      Bool.false_eq_true, ↓reduceIte, List.length_cons, Except.ok.injEq, RecoveryReport.mk.injEq, true_and]
    constructor <;> omega
  released r hr hn := by
    rcases List.mem_cons.1 hr with rfl | hr
    · rw [hh] at hn; cases hn
    · exact h.released r hr hn
  acked r hr hh' hd := by
    rcases List.mem_cons.1 hr with rfl | hr
    · rw [hdec] at hd; cases hd
    · exact h.acked r hr hh' hd
  kept r hr hh' hd := by
    rcases List.mem_cons.1 hr with rfl | hr
    · rw [h.frame _ hnot]; exact hrow
    · exact h.kept r hr hh' hd
  frame := Store.row?_frame_cons (fun _ _ => rfl) h.frame
  keys := h.keys
  venue := h.venue
  told := by simpa [hdec] using h.told

/-- A row the broker holds, completed with the broker's id ahead of the walk over the rest. -/
theorem cons_acked {o : PaperOrder}
    (h : SweepPass now rest { rep with inspected := rep.inspected + 1, acked := rep.acked + 1 }
      { rec with log := rec.log ++ [(row.submission, recoveredAck o.brokerId now)] }
      ((v.markSent row.key).markAcked row.key) out)
    (ho : v.broker.byClient? row.key = some o) (hdec : row.decodes = true) (hrow : v.store.row? row.key = some row)
    (hc : row.status = .claimed) (hst : row.Stamped) (hnot : row.key ∉ rest.map (·.key)) :
    SweepPass now (row :: rest) rep rec v out := by
  have hh : row.heldBy v.broker = true := by simp [OutboxRow.heldBy, ho]
  have hd : row.inDoubt = true := OutboxRow.inDoubt_iff.2 (.inl hc)
  refine ⟨?_, fun r hr hn => ?_, fun r hr hh' hd' => ?_, fun r hr hh' hd' => ?_,
    Store.row?_frame_cons (fun k hk => by simpa using Store.row?_markSent_markAcked_of_ne v.store v.now hk) h.frame,
    ?_, ?_, ?_⟩
  · rw [h.result]
    simp only [Venue.broker_markAcked, Venue.broker_markSent, List.filter_cons, hh, hdec, Bool.not_true,
      Bool.and_self, Bool.and_false, Bool.false_eq_true, ↓reduceIte, List.length_cons, Except.ok.injEq,
      RecoveryReport.mk.injEq, and_true]
    constructor <;> omega
  · rcases List.mem_cons.1 hr with rfl | hr
    · rw [hh] at hn; cases hn
    · simpa using h.released r hr (by simpa using hn)
  · rcases List.mem_cons.1 hr with rfl | hr
    · rw [h.frame _ hnot]
      simpa using Store.row?_markSent_markAcked v.now hrow hd hst
    · simpa using h.acked r hr (by simpa using hh') hd'
  · rcases List.mem_cons.1 hr with rfl | hr
    · rw [hdec] at hd'; cases hd'
    · simpa using h.kept r hr (by simpa using hh') hd'
  · rw [h.keys]
    simpa using Store.keys_markSent_markAcked v.store v.now row.key
  · rw [h.venue]
    rfl
  · obtain ⟨L, hrec, hfst, hack⟩ := h.told
    refine ⟨(row.submission, recoveredAck o.brokerId now) :: L, by simp [hrec], ?_, ?_⟩
    · simp only [Venue.broker_markAcked, Venue.broker_markSent] at hfst
      simp [hh, hdec, hfst]
    · intro e he
      rcases List.mem_cons.1 he with rfl | he
      · exact ⟨o, by simpa using ho, rfl⟩
      · simpa using hack e he

end SweepPass

/-- **The sweep walk**, by induction over the rows with the report, the recorder and the venue
generalized, as for `recoverRows_pass`. -/
theorem sweepRows_pass (now : Instant) :
    ∀ (rows : List OutboxRow) (rep : RecoveryReport) (rec : Recorder) (v : Venue),
      (rows.map (·.key)).Nodup → (∀ r ∈ rows, v.store.row? r.key = some r ∧ r.status = .claimed ∧ r.Stamped) →
      rec.failNext = none → v.broker.lookupOutages = 0 →
      SweepPass now rows rep rec v (sweepRows Recorder.sink now rows rep (rec, v)) := by
  intro rows
  induction rows with
  | nil => intro rep rec v _ _ _ _; exact SweepPass.nil now rep rec v
  | cons row rest ih =>
    intro rep rec v hnd hrows hrec hl
    rw [List.map_cons] at hnd
    obtain ⟨hnot, hnd'⟩ := List.nodup_cons.1 hnd
    obtain ⟨hrow, hc, hst⟩ := hrows row List.mem_cons_self
    have hrest : ∀ s : Store, (∀ k ≠ row.key, s.row? k = v.store.row? k) →
        ∀ r ∈ rest, s.row? r.key = some r ∧ r.status = .claimed ∧ r.Stamped :=
      fun _ => Store.rows_of_frame_cons hnot hrows
    cases ho : v.broker.byClient? row.key with
    | none =>
      rw [sweepRows_cons_of_unheld hl ho hrow hc]
      exact (ih _ rec { v with store := (v.store.release row.key).2 } hnd'
        (hrest _ fun _ hk => Store.row?_release_of_ne v.store hk) hrec hl).cons_released
        (by simp [OutboxRow.heldBy, ho]) hrow hc hnot
    | some o =>
      cases hdec : row.decodes with
      | false =>
        rw [sweepRows_cons_of_held_undecodable hdec hl ho]
        exact (ih _ rec v hnd' (hrest _ fun _ _ => rfl) hrec hl).cons_kept (by simp [OutboxRow.heldBy, ho]) hdec
          hrow hnot
      | true =>
        obtain ⟨i, hi⟩ := OutboxRow.decodes_iff.1 hdec
        rw [sweepRows_cons_of_held hi hrec hl ho]
        have hmarked := hrest ((v.markSent row.key).markAcked row.key).store fun k hk => by
          simpa using Store.row?_markSent_markAcked_of_ne v.store v.now hk
        exact (ih _ _ _ hnd' hmarked (by exact hrec) hl).cons_acked ho hdec hrow hc hst hnot

/-! ### A whole sweep -/

/-- What a sweep by the clock `now` with cutoff `cutoff` promises from the recording sink `rec` and the venue `v` to
`out`:

* it succeeds, and changes the venue only in its outbox: no order is submitted, cancelled or
  replaced, and neither the clock nor the ids move;
* each row claimed before the cutoff is released when the broker lacks its key, acked when the
  broker holds it and its intent decodes, and left as it is when its intent does not decode;
* every other row is left as it is;
* the recorder is told, in order, of each row acked, with the id of the order the broker holds
  under its key. -/
structure Sweeps (now cutoff : Instant) (rec : Recorder) (v : Venue)
    (out : Except Fault RecoveryReport × Recorder × Venue) : Prop where
  ok : ∃ rep, out.1 = .ok rep
  venue : out.2.2 = { v with store := out.2.2.store }
  released : ∀ r ∈ v.store.outbox, r.claimedBefore cutoff = true → r.heldBy v.broker = false →
    out.2.2.store.row? r.key = some r.released
  acked : ∀ r ∈ v.store.outbox, r.claimedBefore cutoff = true → r.heldBy v.broker = true → r.decodes = true →
    out.2.2.store.row? r.key = some (r.ackedAt v.now)
  kept : ∀ r ∈ v.store.outbox, r.claimedBefore cutoff = true → r.heldBy v.broker = true → r.decodes = false →
    out.2.2.store.row? r.key = some r
  left : ∀ r ∈ v.store.outbox, r.claimedBefore cutoff = false → out.2.2.store.row? r.key = some r
  told : ∃ L : List (Intent × BrokerAck), out.2.1 = { rec with log := rec.log ++ L } ∧
    L.map Prod.fst =
      (v.store.outbox.filter fun r => r.claimedBefore cutoff && r.heldBy v.broker && r.decodes).map (·.submission) ∧
    ∀ e ∈ L, ∃ o, v.broker.byClient? e.1.key = some o ∧ e.2 = recoveredAck o.brokerId now

/-- A walk over the stale claims of a sound store does what `Sweeps` says. -/
theorem sweepRows_sweeps (now cutoff : Instant) {rec : Recorder} {v : Venue} (hs : v.store.Sound)
    (hl : v.broker.lookupOutages = 0) (hrec : rec.failNext = none) :
    Sweeps now cutoff rec v (sweepRows Recorder.sink now (v.store.staleClaims cutoff) {} (rec, v)) := by
  obtain ⟨hnd, hrows⟩ := hs.filter_rows (·.claimedBefore cutoff)
  have hp := sweepRows_pass now (v.store.staleClaims cutoff) {} rec v hnd
    (fun r hr => ⟨(hrows r hr).1, (OutboxRow.claimedBefore_iff.1 (hrows r hr).2.2.2).1, (hrows r hr).2.2.1⟩) hrec hl
  have hmem : ∀ {r : OutboxRow}, r ∈ v.store.outbox → r.claimedBefore cutoff = true → r ∈ v.store.staleClaims cutoff :=
    fun hr hc => by rw [Store.staleClaims_eq]; exact List.mem_filter.2 ⟨hr, hc⟩
  refine ⟨⟨_, hp.result⟩, hp.venue, fun r hr hc => hp.released r (hmem hr hc),
    fun r hr hc => hp.acked r (hmem hr hc), fun r hr hc => hp.kept r (hmem hr hc), fun r hr hc => ?_, ?_⟩
  · rw [hp.frame _ (hs.key_not_mem_filter hr hc)]
    exact Store.row?_of_mem hs.keys_nodup hr
  · obtain ⟨L, hL, hfst, hack⟩ := hp.told
    refine ⟨L, hL, ?_, hack⟩
    rw [hfst, Store.staleClaims_eq, List.filter_filter]
    exact congrArg _ (List.filter_congr fun r _ => by cases r.claimedBefore cutoff <;> simp)

/-- **The stale-claim sweep.** For every reading `now` of the recoverer's clock and every ttl, the
least word included, from a sound store, a broker that answers every lookup and a recording sink
that takes every report, the sweep releases or completes exactly the rows claimed before
`now − ttl`, as `Sweeps` says. -/
theorem sweepStaleClaims_settles (now : Instant) (ttl : Int64) {rec : Recorder} {v : Venue}
    (hs : v.store.Sound) (hl : v.broker.lookupOutages = 0) (hrec : rec.failNext = none) :
    Sweeps now (now - ttl.toInt) rec v (sweepStaleClaims Recorder.sink now ttl (rec, v)) :=
  sweepRows_sweeps now _ hs hl hrec

/-- A claim taken at the sweep's own time, at a broker that never saw it, swept with the least word
as ttl: the cutoff is `2⁶³` nanoseconds after the claim. -/
theorem sweepStaleClaims_settles_at_the_least_ttl :
    ({ store := ({} : Store).run [.enqueue 0 "run" "k1" "\x7b\x7d", .claim 0 1 "dead"] } : Venue).store.Sound ∧
      ({ store := ({} : Store).run [.enqueue 0 "run" "k1" "\x7b\x7d", .claim 0 1 "dead"] } : Venue).broker.lookupOutages = 0 ∧
      ({} : Recorder).failNext = none ∧
      Sweeps 0 (0 - Int64.minValue.toInt) {} { store := ({} : Store).run [.enqueue 0 "run" "k1" "\x7b\x7d", .claim 0 1 "dead"] }
        (sweepStaleClaims Recorder.sink 0 Int64.minValue
          ({}, { store := ({} : Store).run [.enqueue 0 "run" "k1" "\x7b\x7d", .claim 0 1 "dead"] })) :=
  ⟨Store.sound_empty.run _, rfl, rfl, sweepStaleClaims_settles 0 Int64.minValue (Store.sound_empty.run _) rfl rfl⟩

end TradeDesk
