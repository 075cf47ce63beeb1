import TradeDesk.Proofs.Dispatch.Outcome
import TradeDesk.Proofs.Store.Lifecycle
/-!
# What recovery does to a run

After a crash a row may be claimed or sent (in doubt) without the desk knowing whether the broker
has its order. Recovery walks the rows of a run that are not acked and asks the broker about each
row in doubt before it acts. Every row falls in one class, read off the row, the gates and the
broker's book at the start of the pass (`OutboxRow.resolvedBy`, `OutboxRow.resubmittedBy`):

* a row that is not in doubt (pending or failed) is passed over (`recoverRows_cons_of_not_inDoubt`);
* a row in doubt whose intent does not decode is deferred (`recoverRows_cons_of_undecodable`);
* a row the broker holds is completed with the broker's id, with no submit
  (`recoverRows_cons_of_held`);
* a row the broker lacks is refused by a closed gate before the broker is reached, and deferred
  (`recoverRows_cons_of_closed`), or, with every gate open, submitted once, opening an order under
  its key, and completed (`recoverRows_cons_of_open`).

Completing marks the row sent, which a sent row refuses, reports it to the sink, and acks it; a
resolved row therefore ends acked with its first send time, or the pass's time if it had none
(`Store.row?_markSent_markAcked`).

The rows are those of a sound store: distinct keys that are not empty, each row carrying the
stamps of its status. Each step touches the outbox only at its own row's key and the broker only
under it, so a walk is an induction over the rows with the world generalized
(`recoverRows_pass`), whose outcome `RecoveryPass` gathers; each class adds one step to the pass
over the rows after it (`RecoveryPass.cons_skipped` and the three after it). A walk over rows none
of which it resolves changes nothing (`recoverRows_of_unresolved`), which is what a second
recovery finds (`recoverRun_again`). `recoverRun_resolves` assembles the whole recovery of a run.
-/

namespace TradeDesk

namespace OutboxRow

/-- A row recovery inspects: claimed or sent, so that the desk cannot tell whether the broker has
its order. -/
def inDoubt (r : OutboxRow) : Bool := r.status == .claimed || r.status == .sent

/-- Whether the intent stored in a row decodes. -/
def decodes (r : OutboxRow) : Bool := (Intent.ofStored r.id r.orderJson).toBool

/-- Whether recovery resolves a row, with gates `gs` and the broker's book `b`: the row is in doubt,
its intent decodes, and the broker holds its key or every gate is open. -/
def resolvedBy (gs : Gates) (b : Paper) (r : OutboxRow) : Bool :=
  r.inDoubt && r.decodes && ((b.byClient? r.key).isSome || gs.closed?.isNone)

/-- Whether recovery submits a row again: in doubt, decodable, unknown to the broker, with every
gate open. -/
def resubmittedBy (gs : Gates) (b : Paper) (r : OutboxRow) : Bool :=
  r.inDoubt && r.decodes && (b.byClient? r.key).isNone && gs.closed?.isNone

/-- A row once acked at `now`: stamped sent then, unless it already was. -/
def ackedAt (now : Instant) (r : OutboxRow) : OutboxRow := { r with status := .acked, sentAt := r.sentAt <|> some now }

theorem inDoubt_iff {r : OutboxRow} : r.inDoubt = true ↔ r.status = .claimed ∨ r.status = .sent := by
  simp [inDoubt]

theorem decodes_iff {r : OutboxRow} : r.decodes = true ↔ ∃ i, Intent.ofStored r.id r.orderJson = .ok i := by
  unfold decodes
  cases Intent.ofStored r.id r.orderJson <;> simp [Except.toBool]

theorem submission_of_ofStored {r : OutboxRow} {i : Intent} (h : Intent.ofStored r.id r.orderJson = .ok i) :
    r.submission = { i with key := r.key } := by
  simp [submission, h, Except.toOption]

theorem resolvedBy_of_resubmittedBy {gs : Gates} {b : Paper} {r : OutboxRow} (h : r.resubmittedBy gs b = true) :
    r.resolvedBy gs b = true := by
  simp only [resubmittedBy, resolvedBy, Bool.and_eq_true, Option.isNone_iff_eq_none, Bool.or_eq_true,
    Option.isSome_iff_ne_none] at h ⊢
  exact ⟨h.1.1, .inr h.2⟩

theorem resubmittedBy_eq_false {gs : Gates} {b : Paper} {r : OutboxRow} (h : r.resolvedBy gs b = false) :
    r.resubmittedBy gs b = false :=
  Bool.eq_false_iff.2 fun h' => by rw [resolvedBy_of_resubmittedBy h'] at h; cases h

theorem inDoubt_of_resolvedBy {gs : Gates} {b : Paper} {r : OutboxRow} (h : r.resolvedBy gs b = true) :
    r.inDoubt = true := by
  simp only [resolvedBy, Bool.and_eq_true] at h
  exact h.1.1

theorem resolvedBy_congr (gs : Gates) {b b' : Paper} {r : OutboxRow} (h : b'.byClient? r.key = b.byClient? r.key) :
    r.resolvedBy gs b' = r.resolvedBy gs b := by
  simp only [resolvedBy, h]

theorem resubmittedBy_congr (gs : Gates) {b b' : Paper} {r : OutboxRow} (h : b'.byClient? r.key = b.byClient? r.key) :
    r.resubmittedBy gs b' = r.resubmittedBy gs b := by
  simp only [resubmittedBy, h]

end OutboxRow

/-- The claim of a row in doubt with a key is that row's. -/
theorem Claim.ofRow_of_inDoubt {r : OutboxRow} (hd : r.inDoubt = true) (hk : r.key ≠ "") :
    Claim.ofRow (some r) = .ok { outboxId := r.id, key := r.key } := by
  simp [Claim.ofRow, Claim.ofParts, hk, OutboxRow.inDoubt_iff.1 hd]

/-! ### The broker's book -/

/-- The order a broker opens for a request under a client id it does not know. -/
def PaperOrder.fresh (brokerId : String) (req : Intent) : PaperOrder := { brokerId, clientId := req.key, request := req }

namespace Paper

/-- The book after orders `os` were opened at its end, one submit each. -/
def openAll (b : Paper) (os : List PaperOrder) : Paper :=
  { b with orders := b.orders ++ os, submits := b.submits + os.length }

@[simp] theorem openAll_nil (b : Paper) : b.openAll [] = b := by simp [openAll]

theorem openAll_append (b : Paper) (os os' : List PaperOrder) : (b.openAll os).openAll os' = b.openAll (os ++ os') := by
  simp only [openAll, List.append_assoc, List.length_append, Nat.add_assoc]

@[simp] theorem failNext_openAll (b : Paper) (os : List PaperOrder) : (b.openAll os).failNext = b.failNext := rfl

@[simp] theorem lookupOutages_openAll (b : Paper) (os : List PaperOrder) :
    (b.openAll os).lookupOutages = b.lookupOutages := rfl

/-- Opening orders keeps every order the book held under a client id. -/
theorem byClient?_openAll_of_some {b : Paper} {k : String} {o : PaperOrder} (h : b.byClient? k = some o)
    (os : List PaperOrder) : (b.openAll os).byClient? k = some o := by
  simp only [byClient?, openAll] at h ⊢
  rw [List.find?_append, h]
  rfl

/-- Opening an order under another client id changes nothing the book answers for `k`. -/
theorem byClient?_openAll_fresh_of_ne {b : Paper} {k : String} (id : String) {req : Intent} (h : k ≠ req.key) :
    (b.openAll [PaperOrder.fresh id req]).byClient? k = b.byClient? k := by
  simp only [byClient?, openAll, List.find?_append]
  cases b.orders.find? (·.clientId = k) with
  | some o => rfl
  | none => simp [PaperOrder.fresh, Ne.symm h]

/-- A broker with no failure to inject opens an order for a client id it does not know, under the
next id issued. -/
theorem submit_of_unknown {b : Paper} (hf : b.failNext = none) (ids : IdSource) (now : Instant) {req : Intent}
    (hn : b.byClient? req.key = none) :
    b.submit ids now Venue.minted req =
      (.ok { brokerId := ids.next.1, status := "new", stamped := now }, b.openAll [PaperOrder.fresh ids.next.1 req],
        ids.next.2) := by
  have htake : b.takeFailure = (none, b) := by simp [takeFailure, hf]
  simp only [submit, InvokeToken.verify, Venue.minted, htake, ↓reduceIte]
  simp only [byClient?] at hn ⊢
  rw [hn]
  rfl

/-- With no outage a lookup answers from the book and changes nothing. -/
theorem lookup_of_available {b : Paper} (h : b.lookupOutages = 0) (k : String) :
    b.lookup k = (.ok ((b.byClient? k).map (·.brokerId)), b) := by
  simp [lookup, h]

end Paper

namespace Venue

/-- The venue after the gateway submitted `req` to a broker that did not know its key. -/
def opening (v : Venue) (req : Intent) : Venue :=
  { v with broker := v.broker.openAll [PaperOrder.fresh v.ids.next.1 req], ids := v.ids.next.2 }

@[simp] theorem broker_markSent (v : Venue) (k : String) : (v.markSent k).broker = v.broker := rfl
@[simp] theorem broker_markAcked (v : Venue) (k : String) : (v.markAcked k).broker = v.broker := rfl
@[simp] theorem now_markSent (v : Venue) (k : String) : (v.markSent k).now = v.now := rfl
@[simp] theorem now_markAcked (v : Venue) (k : String) : (v.markAcked k).now = v.now := rfl
@[simp] theorem store_markSent (v : Venue) (k : String) : (v.markSent k).store = (v.store.markSent v.now k).2 := rfl
@[simp] theorem store_markAcked (v : Venue) (k : String) : (v.markAcked k).store = (v.store.markAcked k).2 := rfl

@[simp] theorem broker_opening (v : Venue) (req : Intent) :
    (v.opening req).broker = v.broker.openAll [PaperOrder.fresh v.ids.next.1 req] := rfl

@[simp] theorem now_opening (v : Venue) (req : Intent) : (v.opening req).now = v.now := rfl
@[simp] theorem store_opening (v : Venue) (req : Intent) : (v.opening req).store = v.store := rfl

theorem lookup_of_available {v : Venue} (h : v.broker.lookupOutages = 0) (k : String) :
    v.lookup k = (.ok ((v.broker.byClient? k).map (·.brokerId)), v) := by
  simp [lookup, Paper.lookup_of_available h]

/-- With every gate open and a valid claim, a broker with no failure to inject opens an order for a
key it does not know. -/
theorem submit_of_unknown {v : Venue} {gs : Gates} (hg : gs.closed? = none) (hf : v.broker.failNext = none)
    {claim : Claim} (hc : claim.valid = true) {req : Intent} (hn : v.broker.byClient? claim.key = none) :
    v.submit gs claim req =
      (.ok { brokerId := v.ids.next.1, status := "new", stamped := v.now }, v.opening { req with key := claim.key }) := by
  simp only [submit, Gates.enforce, hg, hc, Bool.not_true, Bool.false_eq_true, ↓reduceIte,
    @Paper.submit_of_unknown _ hf v.ids v.now { req with key := claim.key } hn, Except.mapError]
  rfl

end Venue

theorem complete_recorder {rec : Recorder} (hrec : rec.failNext = none) (intent : Intent) (ack : BrokerAck) (v : Venue) :
    complete Recorder.sink intent ack (rec, v) =
      (.ok (), ({ rec with log := rec.log ++ [(intent, ack)] }, (v.markSent intent.key).markAcked intent.key)) := by
  simp [complete, Recorder.sink, hrec]

namespace Store

/-- Completing a row in doubt acks it, stamping it sent at `now` unless it already was. -/
theorem row?_markSent_markAcked {s : Store} (now : Instant) {r : OutboxRow} (hr : s.row? r.key = some r)
    (hd : r.inDoubt = true) (hst : r.Stamped) :
    ((s.markSent now r.key).2.markAcked r.key).2.row? r.key = some (r.ackedAt now) := by
  rcases OutboxRow.inDoubt_iff.1 hd with hc | hs
  · have hsent := row?_transition_self (keepsKey_markSent now) hr (if_pos hc)
    exact row?_transition_self keepsKey_markAcked hsent rfl
  · -- a sent row refuses the marking, so it keeps its send time and only the ack moves it
    have hsame : (s.markSent now r.key).2 = s := by
      simp [markSent, transition, hr, hs]
    obtain ⟨t, ht⟩ := Option.isSome_iff_exists.1 (hst.sent hs).2
    rw [hsame, markAcked, row?_transition_self keepsKey_markAcked hr rfl]
    simp [OutboxRow.ackedAt, ht]

theorem keys_markSent_markAcked (s : Store) (now : Instant) (k : String) :
    ((s.markSent now k).2.markAcked k).2.keys = s.keys := by
  rw [markAcked, keys_transition keepsKey_markAcked, markSent, keys_transition (keepsKey_markSent now)]

theorem row?_markSent_markAcked_of_ne (s : Store) (now : Instant) {key k : String} (h : k ≠ key) :
    ((s.markSent now key).2.markAcked key).2.row? k = s.row? k := by
  rw [row?_markAcked_of_ne _ h, row?_markSent_of_ne _ _ h]

/-- The rows after the first are still the rows of their keys in a store that changed only at the
first row's key. -/
theorem rows_of_frame_cons {Q : OutboxRow → Prop} {row : OutboxRow} {rest : List OutboxRow} {s s' : Store}
    (hnot : row.key ∉ rest.map (·.key)) (hrows : ∀ r ∈ row :: rest, s.row? r.key = some r ∧ Q r)
    (hs : ∀ k ≠ row.key, s'.row? k = s.row? k) : ∀ r ∈ rest, s'.row? r.key = some r ∧ Q r := by
  intro r hr
  have hne : r.key ≠ row.key := fun he => hnot (he ▸ List.mem_map_of_mem hr)
  rw [hs r.key hne]
  exact hrows r (List.mem_cons_of_mem row hr)

end Store

/-! ### One row -/

section Row

variable {σ : Type} {gs : Gates} {sink : Sink σ} {row : OutboxRow} {rest : List OutboxRow} {rep : RecoveryReport}

/-- A row that is not in doubt is passed over. -/
theorem recoverRows_cons_of_not_inDoubt (h : row.inDoubt = false) (w : σ × Venue) :
    recoverRows gs sink (row :: rest) rep w = recoverRows gs sink rest rep w := by
  have h' : ¬ (row.status = .claimed ∨ row.status = .sent) := fun h' => by
    rw [← OutboxRow.inDoubt_iff, h] at h'
    cases h'
  simp [recoverRows, h']

/-- A row in doubt whose intent does not decode is deferred. -/
theorem recoverRows_cons_of_undecodable (hd : row.inDoubt = true) (h : row.decodes = false) (w : σ × Venue) :
    recoverRows gs sink (row :: rest) rep w =
      recoverRows gs sink rest { rep with inspected := rep.inspected + 1, deferred := rep.deferred + 1 } w := by
  have hs := OutboxRow.inDoubt_iff.1 hd
  cases hi : Intent.ofStored row.id row.orderJson with
  | error f => simp [recoverRows, hs, hi]
  | ok i => rw [OutboxRow.decodes, hi] at h; cases h

/-- With a gate closed, a row the broker lacks is refused before the broker is reached, and
deferred. -/
theorem recoverRows_cons_of_closed (hd : row.inDoubt = true) (hdec : row.decodes = true) (hk : row.key ≠ "")
    {g : Gate} (hg : gs.closed? = some g) {w : σ × Venue} (hl : w.2.broker.lookupOutages = 0)
    (hn : w.2.broker.byClient? row.key = none) :
    recoverRows gs sink (row :: rest) rep w =
      recoverRows gs sink rest { rep with inspected := rep.inspected + 1, deferred := rep.deferred + 1 } w := by
  obtain ⟨i, hi⟩ := OutboxRow.decodes_iff.1 hdec
  simp [recoverRows, OutboxRow.inDoubt_iff.1 hd, hi, Venue.lookup_of_available hl, hn,
    Claim.ofRow_of_inDoubt hd hk, Venue.submit_of_closed hg, Gates.isGateRefusal_refusal]

/-- A row the broker holds is completed with the broker's id, and the recorder is told. -/
theorem recoverRows_cons_of_held (hd : row.inDoubt = true) {i : Intent} (hi : Intent.ofStored row.id row.orderJson = .ok i)
    {rec : Recorder} (hrec : rec.failNext = none) {v : Venue} (hl : v.broker.lookupOutages = 0) {o : PaperOrder}
    (ho : v.broker.byClient? row.key = some o) :
    recoverRows gs Recorder.sink (row :: rest) rep (rec, v) =
      recoverRows gs Recorder.sink rest { rep with inspected := rep.inspected + 1, acked := rep.acked + 1 }
        ({ rec with log := rec.log ++ [(row.submission, recoveredAck o.brokerId v.now)] },
          (v.markSent row.key).markAcked row.key) := by
  simp [recoverRows, OutboxRow.inDoubt_iff.1 hd, hi, Venue.lookup_of_available hl, ho,
    complete_recorder hrec, OutboxRow.submission_of_ofStored hi]

/-- With every gate open, a row the broker lacks is submitted once, opening an order under its key,
and completed with the id of that order. -/
theorem recoverRows_cons_of_open (hd : row.inDoubt = true) {i : Intent} (hi : Intent.ofStored row.id row.orderJson = .ok i)
    (hk : row.key ≠ "") (hg : gs.closed? = none) {rec : Recorder} (hrec : rec.failNext = none) {v : Venue}
    (hl : v.broker.lookupOutages = 0) (hf : v.broker.failNext = none) (hn : v.broker.byClient? row.key = none) :
    recoverRows gs Recorder.sink (row :: rest) rep (rec, v) =
      recoverRows gs Recorder.sink rest
        { rep with inspected := rep.inspected + 1, resubmitted := rep.resubmitted + 1, acked := rep.acked + 1 }
        ({ rec with log := rec.log ++ [(row.submission, { brokerId := v.ids.next.1, status := "new", stamped := v.now })] },
          ((v.opening row.submission).markSent row.key).markAcked row.key) := by
  have hsub := @Venue.submit_of_unknown v gs hg hf { outboxId := row.id, key := row.key } (by simp [Claim.valid, hk])
    { i with key := row.key } hn
  simp [recoverRows, OutboxRow.inDoubt_iff.1 hd, hi, Venue.lookup_of_available hl, hn,
    Claim.ofRow_of_inDoubt hd hk, hsub, complete_recorder hrec, OutboxRow.submission_of_ofStored hi]

end Row

/-! ### A walk over the rows of a run -/

/-- What a recovery walk over rows `rows` does, from report `rep`, recorder `rec` and venue `v`,
ending at `out`. Each row is judged against the gates and the broker's book at the start. A row
recovery resolves ends acked and is told to the recorder, in order, with the broker id of the order
held under its key; the broker opens an order for each row resubmitted and for nothing else. Every
other row stays as it was, and so does every key the walk does not visit. -/
structure RecoveryPass (gs : Gates) (rows : List OutboxRow) (rep : RecoveryReport) (rec : Recorder) (v : Venue)
    (out : Except Fault RecoveryReport × Recorder × Venue) : Prop where
  result : out.1 = .ok { rep with
    inspected := rep.inspected + (rows.filter (·.inDoubt)).length,
    acked := rep.acked + (rows.filter (·.resolvedBy gs v.broker)).length,
    resubmitted := rep.resubmitted + (rows.filter (·.resubmittedBy gs v.broker)).length,
    deferred := rep.deferred + (rows.filter fun r => r.inDoubt && !r.resolvedBy gs v.broker).length }
  resolved : ∀ r ∈ rows, r.resolvedBy gs v.broker = true → out.2.2.store.row? r.key = some (r.ackedAt v.now)
  unresolved : ∀ r ∈ rows, r.resolvedBy gs v.broker = false → out.2.2.store.row? r.key = some r
  frame : ∀ k ∉ rows.map (·.key), out.2.2.store.row? k = v.store.row? k
  keys : out.2.2.store.keys = v.store.keys
  broker : ∃ os : List PaperOrder, out.2.2.broker = v.broker.openAll os ∧
    os.map (·.clientId) = (rows.filter (·.resubmittedBy gs v.broker)).map (·.key)
  told : ∃ L : List (Intent × BrokerAck), out.2.1 = { rec with log := rec.log ++ L } ∧
    L.map Prod.fst = (rows.filter (·.resolvedBy gs v.broker)).map (·.submission) ∧
    ∀ e ∈ L, ∃ o, out.2.2.broker.byClient? e.1.key = some o ∧ e.2.brokerId = o.brokerId
  now : out.2.2.now = v.now

namespace RecoveryPass

theorem nil (gs : Gates) (rep : RecoveryReport) (rec : Recorder) (v : Venue) :
    RecoveryPass gs [] rep rec v (.ok rep, rec, v) where
  result := by simp
  resolved _ h := by cases h
  unresolved _ h := by cases h
  frame _ _ := rfl
  keys := rfl
  broker := ⟨[], by simp, rfl⟩
  told := ⟨[], by simp, rfl, by simp⟩
  now := rfl

variable {gs : Gates} {row : OutboxRow} {rest : List OutboxRow} {rep : RecoveryReport} {rec : Recorder} {v : Venue}
  {out : Except Fault RecoveryReport × Recorder × Venue}

/-- A row that is not in doubt, passed over ahead of the walk over the rest. -/
theorem cons_skipped (h : RecoveryPass gs rest rep rec v out) (hd : row.inDoubt = false)
    (hrow : v.store.row? row.key = some row) (hnot : row.key ∉ rest.map (·.key)) :
    RecoveryPass gs (row :: rest) rep rec v out where
  result := by rw [h.result]; simp [OutboxRow.resolvedBy, OutboxRow.resubmittedBy, hd]
  resolved r hr hres := by
    rcases List.mem_cons.1 hr with rfl | hr
    · simp [OutboxRow.resolvedBy, hd] at hres
    · exact h.resolved r hr hres
  unresolved r hr hres := by
    rcases List.mem_cons.1 hr with rfl | hr
    · rw [h.frame _ hnot]; exact hrow
    · exact h.unresolved r hr hres
  frame := Store.row?_frame_cons (fun _ _ => rfl) h.frame
  keys := h.keys
  broker := by simpa [OutboxRow.resubmittedBy, hd] using h.broker
  told := by simpa [OutboxRow.resolvedBy, hd] using h.told
  now := h.now

/-- A row in doubt that recovery leaves, deferred ahead of the walk over the rest. -/
theorem cons_deferred
    (h : RecoveryPass gs rest { rep with inspected := rep.inspected + 1, deferred := rep.deferred + 1 } rec v out)
    (hd : row.inDoubt = true) (hres : row.resolvedBy gs v.broker = false)
    (hrow : v.store.row? row.key = some row) (hnot : row.key ∉ rest.map (·.key)) :
    RecoveryPass gs (row :: rest) rep rec v out where
  result := by
    rw [h.result]
    simp only [List.filter_cons, hd, hres, OutboxRow.resubmittedBy_eq_false hres, Bool.not_false, Bool.and_self,
      ↓reduceIte, List.length_cons, Bool.false_eq_true, Except.ok.injEq, RecoveryReport.mk.injEq, true_and]
    constructor <;> omega
  resolved r hr hres' := by
    rcases List.mem_cons.1 hr with rfl | hr
    · rw [hres] at hres'; cases hres'
    · exact h.resolved r hr hres'
  unresolved r hr hres' := by
    rcases List.mem_cons.1 hr with rfl | hr
    · rw [h.frame _ hnot]; exact hrow
    · exact h.unresolved r hr hres'
  frame := Store.row?_frame_cons (fun _ _ => rfl) h.frame
  keys := h.keys
  broker := by simpa [OutboxRow.resubmittedBy_eq_false hres] using h.broker
  told := by simpa [hres] using h.told
  now := h.now

/-- A row the broker holds, completed with the broker's id ahead of the walk over the rest. -/
theorem cons_held {o : PaperOrder}
    (h : RecoveryPass gs rest { rep with inspected := rep.inspected + 1, acked := rep.acked + 1 }
      { rec with log := rec.log ++ [(row.submission, recoveredAck o.brokerId v.now)] }
      ((v.markSent row.key).markAcked row.key) out)
    (hres : row.resolvedBy gs v.broker = true) (ho : v.broker.byClient? row.key = some o)
    (hrow : v.store.row? row.key = some row) (hst : row.Stamped) (hnot : row.key ∉ rest.map (·.key)) :
    RecoveryPass gs (row :: rest) rep rec v out where
  result := by
    have hsub : row.resubmittedBy gs v.broker = false := by simp [OutboxRow.resubmittedBy, ho]
    rw [h.result]
    simp only [Venue.broker_markAcked, Venue.broker_markSent, List.filter_cons, OutboxRow.inDoubt_of_resolvedBy hres,
      hres, hsub, Bool.not_true, Bool.and_false, ↓reduceIte, List.length_cons, Bool.false_eq_true, Except.ok.injEq,
      RecoveryReport.mk.injEq, and_true]
    constructor <;> omega
  resolved r hr hres' := by
    rcases List.mem_cons.1 hr with rfl | hr
    · rw [h.frame _ hnot]
      simpa using Store.row?_markSent_markAcked v.now hrow (OutboxRow.inDoubt_of_resolvedBy hres) hst
    · simpa using h.resolved r hr (by simpa using hres')
  unresolved r hr hres' := by
    rcases List.mem_cons.1 hr with rfl | hr
    · rw [hres] at hres'; cases hres'
    · simpa using h.unresolved r hr (by simpa using hres')
  frame := Store.row?_frame_cons (fun k hk => by simpa using Store.row?_markSent_markAcked_of_ne v.store v.now hk) h.frame
  keys := by rw [h.keys]; simpa using Store.keys_markSent_markAcked v.store v.now row.key
  broker := by
    have hsub : row.resubmittedBy gs v.broker = false := by simp [OutboxRow.resubmittedBy, ho]
    simpa [hsub] using h.broker
  told := by
    obtain ⟨L, hrec, hfst, hids⟩ := h.told
    refine ⟨(row.submission, recoveredAck o.brokerId v.now) :: L, by simp [hrec], by simpa [hres] using hfst, ?_⟩
    intro e he
    rcases List.mem_cons.1 he with rfl | he
    · -- the broker still holds the order it held, whatever it opened after
      obtain ⟨os, hb, -⟩ := h.broker
      refine ⟨o, ?_, rfl⟩
      rw [hb]
      exact Paper.byClient?_openAll_of_some (by simpa using ho) os
    · exact hids e he
  now := by simpa using h.now

/-- A row the broker lacks, resubmitted with every gate open and completed with the id of the order
it opened, ahead of the walk over the rest. -/
theorem cons_resubmitted
    (h : RecoveryPass gs rest
      { rep with inspected := rep.inspected + 1, resubmitted := rep.resubmitted + 1, acked := rep.acked + 1 }
      { rec with log := rec.log ++ [(row.submission, { brokerId := v.ids.next.1, status := "new", stamped := v.now })] }
      (((v.opening row.submission).markSent row.key).markAcked row.key) out)
    (hsub : row.resubmittedBy gs v.broker = true) (hn : v.broker.byClient? row.key = none)
    (hrow : v.store.row? row.key = some row) (hst : row.Stamped) (hnot : row.key ∉ rest.map (·.key)) :
    RecoveryPass gs (row :: rest) rep rec v out := by
  have hres := OutboxRow.resolvedBy_of_resubmittedBy hsub
  have hd := OutboxRow.inDoubt_of_resolvedBy hres
  -- the order opened under the row's key changes nothing the broker answers for the other rows,
  -- so the rest is judged alike against the book before and after it
  have hsame : ∀ r ∈ rest, (v.broker.openAll [PaperOrder.fresh v.ids.next.1 row.submission]).byClient? r.key =
      v.broker.byClient? r.key := fun r hr =>
    Paper.byClient?_openAll_fresh_of_ne _ fun he => hnot (by
      rw [OutboxRow.key_submission] at he
      rw [← he]
      exact List.mem_map_of_mem hr)
  have hfres : rest.filter (·.resolvedBy gs (v.broker.openAll [PaperOrder.fresh v.ids.next.1 row.submission])) =
      rest.filter (·.resolvedBy gs v.broker) :=
    List.filter_congr fun r hr => OutboxRow.resolvedBy_congr gs (hsame r hr)
  have hfsub : rest.filter (·.resubmittedBy gs (v.broker.openAll [PaperOrder.fresh v.ids.next.1 row.submission])) =
      rest.filter (·.resubmittedBy gs v.broker) :=
    List.filter_congr fun r hr => OutboxRow.resubmittedBy_congr gs (hsame r hr)
  have hfdef : rest.filter (fun r => r.inDoubt && !r.resolvedBy gs
        (v.broker.openAll [PaperOrder.fresh v.ids.next.1 row.submission])) =
      rest.filter fun r => r.inDoubt && !r.resolvedBy gs v.broker :=
    List.filter_congr fun r hr => by rw [OutboxRow.resolvedBy_congr gs (hsame r hr)]
  have hfresh : (v.broker.openAll [PaperOrder.fresh v.ids.next.1 row.submission]).byClient? row.key =
      some (PaperOrder.fresh v.ids.next.1 row.submission) := by
    simp only [Paper.byClient?] at hn
    simp only [Paper.byClient?, Paper.openAll, List.find?_append, hn]
    simp [PaperOrder.fresh]
  refine ⟨?_, fun r hr hres' => ?_, fun r hr hres' => ?_,
    Store.row?_frame_cons (fun k hk => by simpa using Store.row?_markSent_markAcked_of_ne v.store v.now hk) h.frame,
    ?_, ?_, ?_, by simpa using h.now⟩
  · rw [h.result]
    simp only [Venue.broker_markAcked, Venue.broker_markSent, Venue.broker_opening, hfres, hfsub, hfdef,
      List.filter_cons, hd, hres, hsub, Bool.not_true, Bool.and_false, ↓reduceIte, List.length_cons,
      Bool.false_eq_true, Except.ok.injEq, RecoveryReport.mk.injEq, and_true]
    refine ⟨?_, ?_, ?_⟩ <;> omega
  · rcases List.mem_cons.1 hr with rfl | hr
    · rw [h.frame _ hnot]
      simpa using Store.row?_markSent_markAcked v.now hrow hd hst
    · have := h.resolved r hr (by rw [Venue.broker_markAcked, Venue.broker_markSent, Venue.broker_opening,
        OutboxRow.resolvedBy_congr gs (hsame r hr)]; exact hres')
      simpa using this
  · rcases List.mem_cons.1 hr with rfl | hr
    · rw [hres] at hres'; cases hres'
    · exact h.unresolved r hr (by rw [Venue.broker_markAcked, Venue.broker_markSent, Venue.broker_opening,
        OutboxRow.resolvedBy_congr gs (hsame r hr)]; exact hres')
  · rw [h.keys]
    simpa using Store.keys_markSent_markAcked v.store v.now row.key
  · obtain ⟨os, hb, hkeys⟩ := h.broker
    refine ⟨PaperOrder.fresh v.ids.next.1 row.submission :: os, ?_, ?_⟩
    · rw [hb]
      simp [Paper.openAll_append]
    · simp only [Venue.broker_markAcked, Venue.broker_markSent, Venue.broker_opening, hfsub] at hkeys
      simp [hsub, hkeys, PaperOrder.fresh]
  · obtain ⟨L, hrec, hfst, hids⟩ := h.told
    refine ⟨(row.submission, { brokerId := v.ids.next.1, status := "new", stamped := v.now }) :: L,
      by simp [hrec], ?_, ?_⟩
    · simp only [Venue.broker_markAcked, Venue.broker_markSent, Venue.broker_opening, hfres] at hfst
      simp [hres, hfst]
    · intro e he
      rcases List.mem_cons.1 he with rfl | he
      · obtain ⟨os, hb, -⟩ := h.broker
        refine ⟨PaperOrder.fresh v.ids.next.1 row.submission, ?_, rfl⟩
        rw [hb]
        exact Paper.byClient?_openAll_of_some (by simpa using hfresh) os
      · exact hids e he

end RecoveryPass

/-- **The recovery walk**, by induction over the rows with the report, the recorder and the venue
generalized. Each row is handled as its class says and touches the outbox only at its own key, so
the rows after it are still the rows of their keys when the walk reaches them. -/
theorem recoverRows_pass (gs : Gates) :
    ∀ (rows : List OutboxRow) (rep : RecoveryReport) (rec : Recorder) (v : Venue),
      (rows.map (·.key)).Nodup → (∀ r ∈ rows, v.store.row? r.key = some r ∧ r.key ≠ "" ∧ r.Stamped) →
      rec.failNext = none → v.broker.failNext = none → v.broker.lookupOutages = 0 →
      RecoveryPass gs rows rep rec v (recoverRows gs Recorder.sink rows rep (rec, v)) := by
  intro rows
  induction rows with
  | nil => intro rep rec v _ _ _ _ _; exact RecoveryPass.nil gs rep rec v
  | cons row rest ih =>
    intro rep rec v hnd hrows hrec hf hl
    rw [List.map_cons] at hnd
    obtain ⟨hnot, hnd'⟩ := List.nodup_cons.1 hnd
    obtain ⟨hrow, hk, hst⟩ := hrows row List.mem_cons_self
    -- the rest needs its rows only where the row's own step left them
    have hrest : ∀ s : Store, (∀ k ≠ row.key, s.row? k = v.store.row? k) →
        ∀ r ∈ rest, s.row? r.key = some r ∧ r.key ≠ "" ∧ r.Stamped :=
      fun _ => Store.rows_of_frame_cons hnot hrows
    have hcompleted : ∀ v' : Venue, v'.store = v.store →
        ∀ r ∈ rest, ((v'.markSent row.key).markAcked row.key).store.row? r.key = some r ∧ r.key ≠ "" ∧ r.Stamped :=
      fun v' hv' => hrest _ fun k hk => by
        simpa [hv'] using Store.row?_markSent_markAcked_of_ne v'.store v'.now hk
    cases hd : row.inDoubt with
    | false =>
      rw [recoverRows_cons_of_not_inDoubt hd]
      exact (ih rep rec v hnd' (hrest _ fun _ _ => rfl) hrec hf hl).cons_skipped hd hrow hnot
    | true =>
      cases hdec : row.decodes with
      | false =>
        rw [recoverRows_cons_of_undecodable hd hdec]
        exact (ih _ rec v hnd' (hrest _ fun _ _ => rfl) hrec hf hl).cons_deferred hd
          (by simp [OutboxRow.resolvedBy, hdec]) hrow hnot
      | true =>
        obtain ⟨i, hi⟩ := OutboxRow.decodes_iff.1 hdec
        cases ho : v.broker.byClient? row.key with
        | some o =>
          rw [recoverRows_cons_of_held hd hi hrec hl ho]
          exact (ih _ _ _ hnd' (hcompleted v rfl) (by exact hrec) hf hl).cons_held
            (by simp [OutboxRow.resolvedBy, hd, hdec, ho]) ho hrow hst hnot
        | none =>
          cases hg : gs.closed? with
          | some g =>
            rw [recoverRows_cons_of_closed hd hdec hk hg hl ho]
            exact (ih _ rec v hnd' (hrest _ fun _ _ => rfl) hrec hf hl).cons_deferred hd
              (by simp [OutboxRow.resolvedBy, ho, hg]) hrow hnot
          | none =>
            rw [recoverRows_cons_of_open hd hi hk hg hrec hl hf ho]
            exact (ih _ _ _ hnd' (hcompleted (v.opening row.submission) rfl) (by exact hrec) hf hl).cons_resubmitted
              (by simp [OutboxRow.resubmittedBy, hd, hdec, ho, hg]) ho hrow hst hnot

/-- A walk over rows none of which recovery resolves changes nothing: each row in doubt is deferred. -/
theorem recoverRows_of_unresolved {σ : Type} (gs : Gates) (sink : Sink σ) :
    ∀ (rows : List OutboxRow) (rep : RecoveryReport) (w : σ × Venue), w.2.broker.lookupOutages = 0 →
      (∀ r ∈ rows, r.inDoubt = true → r.key ≠ "") → (∀ r ∈ rows, r.resolvedBy gs w.2.broker = false) →
      recoverRows gs sink rows rep w =
        (.ok { rep with inspected := rep.inspected + (rows.filter (·.inDoubt)).length,
                        deferred := rep.deferred + (rows.filter (·.inDoubt)).length }, w) := by
  intro rows
  induction rows with
  | nil => intro rep w _ _ _; simp [recoverRows]
  | cons row rest ih =>
    intro rep w hl hk hres
    have hk' : ∀ r ∈ rest, r.inDoubt = true → r.key ≠ "" := fun r hr => hk r (List.mem_cons_of_mem row hr)
    have hres' : ∀ r ∈ rest, r.resolvedBy gs w.2.broker = false := fun r hr => hres r (List.mem_cons_of_mem row hr)
    cases hd : row.inDoubt with
    | false =>
      rw [recoverRows_cons_of_not_inDoubt hd, ih rep w hl hk' hres']
      simp [hd]
    | true =>
      have hstep : recoverRows gs sink (row :: rest) rep w =
          recoverRows gs sink rest { rep with inspected := rep.inspected + 1, deferred := rep.deferred + 1 } w := by
        cases hdec : row.decodes with
        | false => exact recoverRows_cons_of_undecodable hd hdec w
        | true =>
          have h₀ := hres row List.mem_cons_self
          simp only [OutboxRow.resolvedBy, hd, hdec, Bool.true_and, Bool.or_eq_false_iff, Option.isSome_eq_false_iff,
            Option.isNone_iff_eq_none] at h₀
          obtain ⟨hn, hg⟩ := h₀
          cases hg' : gs.closed? with
          | none => rw [hg'] at hg; cases hg
          | some g => exact recoverRows_cons_of_closed hd hdec (hk row List.mem_cons_self hd) hg' hl hn
      rw [hstep, ih _ w hl hk' hres']
      simp only [List.filter_cons, hd, ↓reduceIte, List.length_cons, Except.ok.injEq, Prod.mk.injEq, and_true,
        RecoveryReport.mk.injEq, true_and]
      constructor <;> omega

/-! ### A whole recovery -/

/-- What recovery of the run `runId`, with gates `gs`, promises from the recording sink `rec` and
the venue `v` to `out`:

* it succeeds;
* a row it does not resolve is left as it was: every row that is pending, failed or acked, every row
  of another run, every row whose intent does not decode, and, with a gate closed, every row the
  broker lacks; every row of the run it resolves ends acked;
* the broker takes one submit for each row resubmitted, in order, each opening an order under the
  row's key, and no other;
* the recorder is told, in order, of each row resolved, with the broker id of the order held under
  its key;
* a second recovery at once finds nothing to resolve and changes nothing. -/
structure Recovers (gs : Gates) (runId : String) (rec : Recorder) (v : Venue)
    (out : Except Fault RecoveryReport × Recorder × Venue) : Prop where
  ok : ∃ rep, out.1 = .ok rep
  left : ∀ r ∈ v.store.outbox, ¬ (r.runId = runId ∧ r.resolvedBy gs v.broker = true) →
    out.2.2.store.row? r.key = some r
  acked : ∀ r ∈ v.store.outbox, r.runId = runId → r.resolvedBy gs v.broker = true →
    out.2.2.store.row? r.key = some (r.ackedAt v.now)
  submits : ∃ os : List PaperOrder, out.2.2.broker = v.broker.openAll os ∧
    os.map (·.clientId) = (v.store.outbox.filter fun r => r.runId = runId && r.resubmittedBy gs v.broker).map (·.key)
  told : ∃ L : List (Intent × BrokerAck), out.2.1 = { rec with log := rec.log ++ L } ∧
    L.map Prod.fst = (v.store.outbox.filter fun r => r.runId = runId && r.resolvedBy gs v.broker).map (·.submission) ∧
    ∀ e ∈ L, ∃ o, out.2.2.broker.byClient? e.1.key = some o ∧ e.2.brokerId = o.brokerId
  again : ∃ rep, recoverRun gs Recorder.sink runId out.2 = (.ok rep, out.2)

namespace Store

/-- Rows picked out of a sound store are the rows of their keys, under distinct keys that are not
empty, each with the stamps of its status. -/
theorem Sound.filter_rows {s : Store} (hs : s.Sound) (p : OutboxRow → Bool) :
    ((s.outbox.filter p).map (·.key)).Nodup ∧
      ∀ r ∈ s.outbox.filter p, s.row? r.key = some r ∧ r.key ≠ "" ∧ r.Stamped ∧ p r = true := by
  refine ⟨hs.keys_nodup.sublist (List.filter_sublist.map _), fun r hr => ?_⟩
  obtain ⟨hmem, hp⟩ := List.mem_filter.1 hr
  exact ⟨row?_of_mem hs.keys_nodup hmem, fun he => hs.empty_not_mem (he ▸ List.mem_map_of_mem hmem),
    hs.stamped r hmem, hp⟩

/-- A row of a sound store that a filter leaves out is under a key none of the filter's rows has. -/
theorem Sound.key_not_mem_filter {s : Store} (hs : s.Sound) {p : OutboxRow → Bool} {r : OutboxRow}
    (hr : r ∈ s.outbox) (hp : p r = false) : r.key ∉ (s.outbox.filter p).map (·.key) := by
  intro hk
  obtain ⟨r', hr', hkey⟩ := List.mem_map.1 hk
  obtain ⟨hmem, hp'⟩ := List.mem_filter.1 hr'
  rw [List.inj_on_of_nodup_map hs.keys_nodup hmem hr hkey, hp] at hp'
  cases hp'

theorem mem_unacked {s : Store} {runId : String} {r : OutboxRow} :
    r ∈ s.unacked runId ↔ r ∈ s.outbox ∧ r.runId = runId ∧ r.status ≠ .acked := by
  simp [unacked]

/-- The rows of a run that recovery picks out of the unacked ones are picked out of the outbox. -/
theorem filter_unacked {s : Store} {runId : String} {p : OutboxRow → Bool}
    (hp : ∀ r, p r = true → r.inDoubt = true) :
    (s.unacked runId).filter p = s.outbox.filter fun r => r.runId = runId && p r := by
  rw [unacked, List.filter_filter]
  refine List.filter_congr fun r _ => ?_
  cases h : p r with
  | false => simp
  | true =>
    have hne : r.status ≠ .acked := by
      rcases OutboxRow.inDoubt_iff.1 (hp r h) with hs | hs <;> rw [hs] <;> decide
    simp [hne]

end Store

/-- **A second recovery changes nothing.** After a recovery of a run from a sound store that left
every row it did not resolve and acked every row it resolved, keeping the keys, and whose broker
took orders only for the rows it resubmitted, a recovery of the same run finds no row to resolve:
every row of the run still in doubt is one it left, and the broker answers for it as before. -/
theorem recoverRun_again {gs : Gates} {runId : String} {v : Venue} {w : Recorder × Venue} (hs : v.store.Sound)
    (hl : v.broker.lookupOutages = 0) (hkeys : w.2.store.keys = v.store.keys)
    (hleft : ∀ r ∈ v.store.outbox, ¬ (r.runId = runId ∧ r.resolvedBy gs v.broker = true) → w.2.store.row? r.key = some r)
    (hacked : ∀ r ∈ v.store.outbox, r.runId = runId → r.resolvedBy gs v.broker = true →
      w.2.store.row? r.key = some (r.ackedAt v.now))
    (hsubmits : ∃ os : List PaperOrder, w.2.broker = v.broker.openAll os ∧
      os.map (·.clientId) = (v.store.outbox.filter fun r => r.runId = runId && r.resubmittedBy gs v.broker).map (·.key)) :
    ∃ rep, recoverRun gs Recorder.sink runId w = (.ok rep, w) := by
  obtain ⟨os, hbroker, hos⟩ := hsubmits
  have hnd : w.2.store.keys.Nodup := hkeys ▸ hs.keys_nodup
  -- with a gate closed no row was resubmitted, so the broker answers as it did
  have hbook : ∀ r : OutboxRow, r.resolvedBy gs w.2.broker = r.resolvedBy gs v.broker := by
    intro r
    cases hg : gs.closed? with
    | none => simp [OutboxRow.resolvedBy, hg]
    | some g =>
      have hnone : (v.store.outbox.filter fun r => r.runId = runId && r.resubmittedBy gs v.broker) = [] :=
        List.filter_eq_nil_iff.2 fun r _ => by simp [OutboxRow.resubmittedBy, hg]
      rw [hnone, List.map_nil, List.map_eq_nil_iff] at hos
      rw [hbroker, hos, Paper.openAll_nil]
  refine ⟨_, recoverRows_of_unresolved gs Recorder.sink _ {} w (by rw [hbroker]; exact hl) ?_ ?_⟩
  · intro r hr _ he
    have hmem : r.key ∈ w.2.store.keys := List.mem_map_of_mem (Store.mem_unacked.1 hr).1
    rw [hkeys, he] at hmem
    exact hs.empty_not_mem hmem
  · -- a row still unacked is the row its key held at the start, which the first recovery left
    intro r' hr'
    obtain ⟨hmem, hrun, hna⟩ := Store.mem_unacked.1 hr'
    have hk : r'.key ∈ v.store.keys := hkeys ▸ List.mem_map_of_mem hmem
    obtain ⟨r, hr, hkey⟩ := List.mem_map.1 hk
    have hrow' : w.2.store.row? r.key = some r' := hkey ▸ Store.row?_of_mem hnd hmem
    rw [hbook]
    by_cases hdone : r.runId = runId ∧ r.resolvedBy gs v.broker = true
    · rw [hacked r hr hdone.1 hdone.2] at hrow'
      cases hrow'
      exact absurd rfl hna
    · rw [hleft r hr hdone] at hrow'
      cases hrow'
      exact Bool.eq_false_iff.2 fun h => hdone ⟨hrun, h⟩

/-- **Recovery resolves each row in doubt once.** From a sound store, a broker with no failure to
inject and a recording sink that takes every report, recovering a run does what `Recovers` says. -/
theorem recoverRun_resolves (gs : Gates) (runId : String) {rec : Recorder} {v : Venue} (hs : v.store.Sound)
    (hf : v.broker.failNext = none) (hl : v.broker.lookupOutages = 0) (hrec : rec.failNext = none) :
    Recovers gs runId rec v (recoverRun gs Recorder.sink runId (rec, v)) := by
  obtain ⟨hnd, hrows⟩ := hs.filter_rows fun r => decide (r.runId = runId ∧ r.status ≠ .acked)
  have hp := recoverRows_pass gs (v.store.unacked runId) {} rec v hnd
    (fun r hr => ⟨(hrows r hr).1, (hrows r hr).2.1, (hrows r hr).2.2.1⟩) hrec hf hl
  show Recovers gs runId rec v (recoverRows gs Recorder.sink (v.store.unacked runId) {} (rec, v))
  have hres : ∀ r : OutboxRow, r.resolvedBy gs v.broker = true → r.inDoubt = true :=
    fun r => OutboxRow.inDoubt_of_resolvedBy
  have hsub : ∀ r : OutboxRow, r.resubmittedBy gs v.broker = true → r.inDoubt = true :=
    fun r h => OutboxRow.inDoubt_of_resolvedBy (OutboxRow.resolvedBy_of_resubmittedBy h)
  obtain ⟨os, hbroker, hos⟩ := hp.broker
  rw [Store.filter_unacked hsub] at hos
  have hleft : ∀ r ∈ v.store.outbox, ¬ (r.runId = runId ∧ r.resolvedBy gs v.broker = true) →
      (recoverRows gs Recorder.sink (v.store.unacked runId) {} (rec, v)).2.2.store.row? r.key = some r := by
    intro r hr hnot
    by_cases hu : r ∈ v.store.unacked runId
    · exact hp.unresolved r hu (Bool.eq_false_iff.2 fun h => hnot ⟨(Store.mem_unacked.1 hu).2.1, h⟩)
    · rw [hp.frame _ (hs.key_not_mem_filter hr (Bool.eq_false_iff.2 fun h => hu (List.mem_filter.2 ⟨hr, h⟩)))]
      exact Store.row?_of_mem hs.keys_nodup hr
  have hacked : ∀ r ∈ v.store.outbox, r.runId = runId → r.resolvedBy gs v.broker = true →
      (recoverRows gs Recorder.sink (v.store.unacked runId) {} (rec, v)).2.2.store.row? r.key =
        some (r.ackedAt v.now) := by
    intro r hr hrun hr'
    have hne : r.status ≠ .acked := by
      rcases OutboxRow.inDoubt_iff.1 (hres r hr') with h | h <;> rw [h] <;> decide
    exact hp.resolved r (Store.mem_unacked.2 ⟨hr, hrun, hne⟩) hr'
  refine ⟨⟨_, hp.result⟩, hleft, hacked, ⟨os, hbroker, hos⟩, ?_, ?_⟩
  · obtain ⟨L, hL, hfst, hids⟩ := hp.told
    exact ⟨L, hL, by rw [hfst, Store.filter_unacked hres], hids⟩
  · exact recoverRun_again hs hl hp.keys hleft hacked ⟨os, hbroker, hos⟩

/-- A run whose one row a dead dispatcher claimed, with the gates open and a broker that never saw
it: recovery resubmits it. -/
theorem recoverRun_resolves_a_dead_claim :
    ({ store := ({} : Store).run [.enqueue 0 "run" "k1" "\x7b\"symbol\":\"AAPL\",\"side\":\"BUY\",\"quantity\":1\x7d",
        .claim 0 1 "dead"] } : Venue).store.Sound ∧ ({} : Paper).failNext = none ∧ ({} : Paper).lookupOutages = 0 ∧
      ({} : Recorder).failNext = none ∧
      Recovers {} "run" {} { store := ({} : Store).run [.enqueue 0 "run" "k1"
          "\x7b\"symbol\":\"AAPL\",\"side\":\"BUY\",\"quantity\":1\x7d", .claim 0 1 "dead"] }
        (recoverRun {} Recorder.sink "run" ({}, { store := ({} : Store).run [.enqueue 0 "run" "k1"
          "\x7b\"symbol\":\"AAPL\",\"side\":\"BUY\",\"quantity\":1\x7d", .claim 0 1 "dead"] })) :=
  ⟨Store.sound_empty.run _, rfl, rfl, rfl, recoverRun_resolves {} "run" (Store.sound_empty.run _) rfl rfl rfl⟩

end TradeDesk
