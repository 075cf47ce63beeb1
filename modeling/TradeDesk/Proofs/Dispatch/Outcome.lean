import TradeDesk.Proofs.Store.Claims
import TradeDesk.Proofs.Desk.Gates
import TradeDesk.Proofs.Dispatch.SubmitsOnce
/-!
# What one dispatch pass does

A pass claims the oldest pending rows (`Proofs/Store/Claims`) and walks the claimed copies in
order of id. What becomes of a row depends on the row and on three things outside it: the gates,
which a pass reads once, the broker's injected failure, and the sink's.

* A row whose intent does not decode, or lacks a symbol, a positive quantity or a valid side, is
  marked failed (`dispatchRow_of_not_submittable`).
* Any other row is submitted through the gateway. With a gate closed the gateway refuses before
  the broker is reached, and the row and every row after it are released
  (`dispatchRow_of_closed`, `foldl_releaseStep`).
* With the gates open the broker either fails its next call, which it does once, and the row
  stays claimed (`dispatchRow_of_broker_failure`); or it answers, counting the submit and holding
  an order under the row's key, and the row is marked sent, reported to the sink and marked acked,
  unless the sink refuses, which the recording sink does once, and the row stays sent
  (`dispatchRow_of_accepted`).

Each step touches the outbox only at its own row's key, so the walks are inductions over the
claimed rows with the world generalized (`dispatchRows_closed`, `dispatchRows_open`); what a walk
does is gathered in `ClosedPass` and `OpenPass`, and with the gates open each row's outcome adds
one step to the pass over the rows after it (`OpenPass.cons_failed` and the three after it). The
outcome of a whole pass reads off the rows that were pending (`dispatchOnce_outcome`).
-/

namespace TradeDesk

namespace OutboxRow

/-- Whether a row's intent can be submitted: it decodes, and has a symbol, a positive quantity
and a valid side. -/
def submittable (r : OutboxRow) : Bool := (Intent.ofStored r.id r.orderJson).toOption.any Intent.complete

/-- The intent a dispatcher submits for a row: the stored one, under the row's key. -/
def submission (r : OutboxRow) : Intent := { (Intent.ofStored r.id r.orderJson).toOption.getD default with key := r.key }

@[simp] theorem submittable_claimFor (claimant : String) (now : Instant) (r : OutboxRow) :
    (r.claimFor claimant now).submittable = r.submittable := rfl

@[simp] theorem submission_claimFor (claimant : String) (now : Instant) (r : OutboxRow) :
    (r.claimFor claimant now).submission = r.submission := rfl

@[simp] theorem key_submission (r : OutboxRow) : r.submission.key = r.key := rfl

/-- A submittable row's intent decodes, to one that can be submitted. -/
theorem ofStored_of_submittable {r : OutboxRow} (h : r.submittable = true) :
    ∃ i, Intent.ofStored r.id r.orderJson = .ok i ∧ i.complete = true ∧ r.submission = { i with key := r.key } := by
  unfold submittable at h
  unfold submission
  cases hd : Intent.ofStored r.id r.orderJson with
  | error f => rw [hd] at h; cases h
  | ok i =>
    rw [hd] at h
    exact ⟨i, rfl, h, rfl⟩

end OutboxRow

/-- The claim of a claimed row with a key is that row's. -/
theorem Claim.ofRow_of_claimed {r : OutboxRow} (hc : r.status = .claimed) (hk : r.key ≠ "") :
    Claim.ofRow (some r) = .ok { outboxId := r.id, key := r.key } := by
  simp [Claim.ofRow, Claim.ofParts, hk, hc]

theorem Gates.isGateRefusal_refusal (g : Gate) : (Gates.refusal g).isGateRefusal = true := by
  cases g <;> rfl

namespace Paper

/-- A broker `b'` that, from `b`, answered `ack` to a submit under `key`: it counted the submit,
has no failure left to inject, holds an order under the key whose broker id the answer carries,
and still holds every order `b` held. -/
structure Answered (b b' : Paper) (key : String) (ack : BrokerAck) : Prop where
  submits : b'.submits = b.submits + 1
  failNext : b'.failNext = none
  holds : ∃ o, b'.byClient? key = some o ∧ ack.brokerId = o.brokerId
  keeps : ∀ k o, b.byClient? k = some o → b'.byClient? k = some o

/-- A broker with no failure to inject answers a submit. -/
theorem submit_of_no_failure (b : Paper) (ids : IdSource) (now : Instant) (req : Intent) (hf : b.failNext = none) :
    ∃ ack b' ids', b.submit ids now Venue.minted req = (.ok ack, b', ids') ∧ b.Answered b' req.key ack := by
  have htake : b.takeFailure = (none, b) := by simp [takeFailure, hf]
  cases hc : b.byClient? req.key with
  | some o =>
    refine ⟨{ brokerId := o.brokerId, status := o.status.text, stamped := now }, { b with submits := b.submits + 1 },
      ids, ?_, ⟨rfl, hf, ⟨o, hc, rfl⟩, fun k o h => h⟩⟩
    simp only [submit, InvokeToken.verify, Venue.minted, htake, ↓reduceIte]
    simp only [byClient?] at hc ⊢
    rw [hc]
  | none =>
    let o : PaperOrder := { brokerId := ids.next.1, clientId := req.key, request := req }
    let b' : Paper := { b with submits := b.submits + 1, orders := b.orders ++ [o] }
    refine ⟨{ brokerId := o.brokerId, status := o.status.text, stamped := now }, b', ids.next.2,
      ?_, ⟨rfl, hf, ⟨o, ?_, rfl⟩, fun k o h => ?_⟩⟩
    · simp only [submit, InvokeToken.verify, Venue.minted, htake, ↓reduceIte]
      simp only [byClient?] at hc ⊢
      rw [hc]
    · simp only [b', byClient?] at hc ⊢
      simp [List.find?_append, hc, o]
    · simp only [b', byClient?] at h ⊢
      rw [List.find?_append, h]
      rfl

end Paper

/-! ### One row -/

section Row

variable {σ : Type} {gs : Gates} {sink : Sink σ} {row : OutboxRow}

/-- A row that cannot be submitted is marked failed. -/
theorem dispatchRow_of_not_submittable (h : row.submittable = false) (w : σ × Venue) :
    dispatchRow gs sink row w = (.undecodable, (w.1, { w.2 with store := (w.2.store.markFailed row.key).2 })) := by
  unfold dispatchRow
  cases hd : Intent.ofStored row.id row.orderJson with
  | error f => rfl
  | ok i =>
    have hi : i.complete = false := by simpa [OutboxRow.submittable, hd, Except.toOption] using h
    simp [hi]

/-- With a gate closed, a claimed row that can be submitted is refused, and nothing changes. -/
theorem dispatchRow_of_closed {g : Gate} (hg : gs.closed? = some g) (hs : row.submittable = true)
    (hc : row.status = .claimed) (hk : row.key ≠ "") (w : σ × Venue) : dispatchRow gs sink row w = (.refused, w) := by
  obtain ⟨i, hd, hi, -⟩ := OutboxRow.ofStored_of_submittable hs
  unfold dispatchRow
  simp [hd, hi, Claim.ofRow_of_claimed hc hk, Venue.submit_of_closed hg, Gates.isGateRefusal_refusal]

/-- With the gates open, a broker told to fail its next call fails this row's submit, which
leaves the row claimed and only clears the failure. -/
theorem dispatchRow_of_broker_failure (hg : gs.closed? = none) (hs : row.submittable = true)
    (hc : row.status = .claimed) (hk : row.key ≠ "") {w : σ × Venue} {m : String}
    (hf : w.2.broker.failNext = some m) :
    dispatchRow gs sink row w = (.errored, (w.1, { w.2 with broker := { w.2.broker with failNext := none } })) := by
  obtain ⟨i, hd, hi, -⟩ := OutboxRow.ofStored_of_submittable hs
  have htake : w.2.broker.takeFailure = (some (.plain m), { w.2.broker with failNext := none }) := by
    simp [Paper.takeFailure, hf]
  unfold dispatchRow
  simp [hd, hi, Claim.ofRow_of_claimed hc hk, Venue.submit, Gates.enforce, hg, Claim.valid, hk, Paper.submit,
    InvokeToken.verify, Venue.minted, htake, Except.mapError, Fault.isGateRefusal, Fault.within, Fault.plain,
    Fault.gate?]

/-- With the gates open and no failure to inject, the broker answers the row's submit. The row is
marked sent and reported to the recording sink; a sink told to refuse its next report refuses it,
leaving the row sent, and otherwise records it, and the row is marked acked. -/
theorem dispatchRow_of_accepted (hg : gs.closed? = none) (hs : row.submittable = true)
    (hc : row.status = .claimed) (hk : row.key ≠ "") (rec : Recorder) (v : Venue) (hf : v.broker.failNext = none) :
    ∃ ack b' ids', v.broker.Answered b' row.key ack ∧
      (∀ m, rec.failNext = some m → dispatchRow gs Recorder.sink row (rec, v) =
        (.errored, ({ rec with failNext := none }, ({ v with broker := b', ids := ids' } : Venue).markSent row.key))) ∧
      (rec.failNext = none → dispatchRow gs Recorder.sink row (rec, v) =
        (.sent, ({ rec with log := rec.log ++ [(row.submission, ack)] },
          (({ v with broker := b', ids := ids' } : Venue).markSent row.key).markAcked row.key))) := by
  obtain ⟨i, hd, hi, hsub⟩ := OutboxRow.ofStored_of_submittable hs
  obtain ⟨ack, b', ids', hsubmit, hans⟩ := v.broker.submit_of_no_failure v.ids v.now { i with key := row.key } hf
  have hgate : v.submit gs { outboxId := row.id, key := row.key } row.submission =
      (.ok ack, { v with broker := b', ids := ids' }) := by
    simp only [Venue.submit, Gates.enforce, hg, Claim.valid, ne_eq, hk, not_false_eq_true, decide_true,
      Bool.not_true, Bool.false_eq_true, ↓reduceIte, hsub, hsubmit, Except.mapError]
  refine ⟨ack, b', ids', hans, fun m hm => ?_, fun hm => ?_⟩
  · unfold dispatchRow
    simp only [hd, hi, Claim.ofRow_of_claimed hc hk, Bool.not_true, Bool.false_eq_true, ↓reduceIte, hgate, ← hsub,
      complete, Recorder.sink, hm]
  · unfold dispatchRow
    simp only [hd, hi, Claim.ofRow_of_claimed hc hk, Bool.not_true, Bool.false_eq_true, ↓reduceIte, hgate, ← hsub,
      complete, Recorder.sink, hm]

end Row

/-! ### The rows a pass holds -/

namespace Store

/-- A pending row whose claimed copy the store holds, under a key that is not empty: the row as it
was carried no claimant, claim time or send time. -/
structure HoldsClaimed (s : Store) (claimant : String) (now : Instant) (r : OutboxRow) : Prop where
  row : s.row? r.key = some (r.claimFor claimant now)
  key_ne : r.key ≠ ""
  pending : r.status = .pending
  claimedBy : r.claimedBy = none
  claimedAt : r.claimedAt = none
  sentAt : r.sentAt = none

namespace HoldsClaimed

variable {s : Store} {claimant : String} {now : Instant} {r : OutboxRow}

theorem of_row? {s' : Store} (h : s.HoldsClaimed claimant now r) (he : s'.row? r.key = s.row? r.key) :
    s'.HoldsClaimed claimant now r :=
  { h with row := he.trans h.row }

/-- Releasing a held row gives the row back as it was. -/
theorem row?_release (h : s.HoldsClaimed claimant now r) :
    (s.release r.key).1 = true ∧ (s.release r.key).2.row? r.key = some r := by
  refine ⟨release_of_claimed h.row rfl, ?_⟩
  rw [release, row?_transition_self keepsKey_release h.row (if_pos rfl)]
  obtain ⟨-, -, hp, hb, ha, -⟩ := h
  cases r
  simp_all [OutboxRow.claimFor]

/-- Marking a held row failed. -/
theorem row?_markFailed (h : s.HoldsClaimed claimant now r) :
    (s.markFailed r.key).2.row? r.key = some { r.claimFor claimant now with status := .failed } :=
  row?_transition_self keepsKey_markFailed h.row (if_pos rfl)

/-- Marking a held row sent stamps it with the time of the marking, and marking it acked after
keeps that stamp. -/
theorem row?_markSent (h : s.HoldsClaimed claimant now r) (t : Instant) :
    (s.markSent t r.key).2.row? r.key = some { r.claimFor claimant now with status := .sent, sentAt := some t } ∧
      ((s.markSent t r.key).2.markAcked r.key).2.row? r.key =
        some { r.claimFor claimant now with status := .acked, sentAt := some t } := by
  have hsent : (s.markSent t r.key).2.row? r.key =
      some { r.claimFor claimant now with status := .sent, sentAt := some t } := by
    rw [markSent, row?_transition_self (keepsKey_markSent t) h.row (if_pos rfl)]
    simp [OutboxRow.claimFor, h.sentAt]
  exact ⟨hsent, row?_transition_self keepsKey_markAcked hsent rfl⟩

end HoldsClaimed

/-- A step that changes only the first row's key, followed by a walk that changes only the keys of
the rest, changes only the keys of all. -/
theorem row?_frame_cons {x : OutboxRow} {xs : List OutboxRow} {s₀ s₁ s₂ : Store}
    (h₁ : ∀ k ≠ x.key, s₁.row? k = s₀.row? k) (h₂ : ∀ k ∉ xs.map (·.key), s₂.row? k = s₁.row? k) :
    ∀ k ∉ (x :: xs).map (·.key), s₂.row? k = s₀.row? k := by
  intro k hk
  simp only [List.map_cons, List.mem_cons, not_or] at hk
  rw [h₂ k hk.2, h₁ k hk.1]

end Store

/-! ### Releasing -/

/-- One step of releasing rows: the count so far, and the venue. -/
def releaseStep (acc : Nat × Venue) (r : OutboxRow) : Nat × Venue :=
  (if (acc.2.store.release r.key).1 then acc.1 + 1 else acc.1, { acc.2 with store := (acc.2.store.release r.key).2 })

theorem releaseRows_eq (rows : List OutboxRow) (v : Venue) : releaseRows rows v = rows.foldl releaseStep (0, v) := rfl

/-- Releasing the claimed copies of held rows with distinct keys counts each, gives each row back as
it was, and changes nothing else. -/
theorem foldl_releaseStep {claimant : String} {now : Instant} :
    ∀ (xs : List OutboxRow) (n : Nat) (v : Venue), (xs.map (·.key)).Nodup →
      (∀ x ∈ xs, v.store.HoldsClaimed claimant now x) →
      ((xs.map (OutboxRow.claimFor claimant now)).foldl releaseStep (n, v)).1 = n + xs.length ∧
      (∀ x ∈ xs, ((xs.map (OutboxRow.claimFor claimant now)).foldl releaseStep (n, v)).2.store.row? x.key = some x) ∧
      (∀ k ∉ xs.map (·.key),
        ((xs.map (OutboxRow.claimFor claimant now)).foldl releaseStep (n, v)).2.store.row? k = v.store.row? k) ∧
      ((xs.map (OutboxRow.claimFor claimant now)).foldl releaseStep (n, v)).2.broker = v.broker := by
  intro xs
  induction xs with
  | nil => intro n v _ _; simp
  | cons x xs ih =>
    intro n v hnd hheld
    obtain ⟨hx, htail⟩ := List.nodup_cons.1 hnd
    obtain ⟨hmoved, hrow⟩ := (hheld x List.mem_cons_self).row?_release
    -- the first row is released; the others are held in the store the release leaves
    have hstep : releaseStep (n, v) (x.claimFor claimant now) = (n + 1, { v with store := (v.store.release x.key).2 }) := by
      simp [releaseStep, hmoved]
    obtain ⟨hn, hrows, hframe, hbroker⟩ := ih (n + 1) { v with store := (v.store.release x.key).2 } htail
      fun y hy => (hheld y (List.mem_cons_of_mem x hy)).of_row?
        (Store.row?_release_of_ne _ (OutboxRow.key_ne_of_nodup hnd hy))
    simp only [List.map_cons, List.foldl_cons, hstep]
    refine ⟨by rw [hn, List.length_cons]; omega, ?_,
      Store.row?_frame_cons (fun k hk => Store.row?_release_of_ne _ hk) hframe, hbroker⟩
    intro y hy
    rcases List.mem_cons.1 hy with rfl | hy
    · rw [hframe y.key hx, hrow]
    · exact hrows y hy

/-! ### A pass with a gate closed -/

/-- What a walk over held rows `xs` does with a gate closed, from result `res`, sink state `x₀`
and broker `b`, ending at `out`: the rows before the first one that can be submitted are marked
failed, and that row and every row after it are released to pending with their claim cleared;
the broker and the sink are not reached. -/
structure ClosedPass {σ : Type} (claimant : String) (now : Instant) (xs : List OutboxRow) (res : DispatchResult)
    (x₀ : σ) (b : Paper) (out : DispatchResult × σ × Venue) : Prop where
  result : out.1 = { res with failed := res.failed + (xs.takeWhile (!·.submittable)).length,
                              released := res.released + (xs.dropWhile (!·.submittable)).length }
  failed : ∀ x ∈ xs.takeWhile (!·.submittable),
    out.2.2.store.row? x.key = some { x.claimFor claimant now with status := .failed }
  released : ∀ x ∈ xs.dropWhile (!·.submittable), out.2.2.store.row? x.key = some x
  broker : out.2.2.broker = b
  sink : out.2.1 = x₀

/-- A pass that starts at no count and closes counts every row it claimed once. -/
theorem ClosedPass.claimed_eq {σ : Type} {claimant : String} {now : Instant} {xs : List OutboxRow} {x₀ : σ}
    {b : Paper} {out : DispatchResult × σ × Venue} (h : ClosedPass claimant now xs { claimed := xs.length } x₀ b out) :
    out.1.claimed = out.1.sent + out.1.released + out.1.failed + out.1.errored := by
  have hlen := congrArg List.length (xs.takeWhile_append_dropWhile (p := fun x => !x.submittable))
  rw [List.length_append] at hlen
  rw [h.result]
  dsimp only
  omega

section Closed

variable {σ : Type} {gs : Gates} {sink : Sink σ} {g : Gate} {claimant : String} {now : Instant}

/-- **The walk with a gate closed**, by induction over the held rows with the result and the
world generalized. A row that cannot be submitted is marked failed and the walk goes on; the
first row that can be submitted is refused, and the release of the rest ends the walk. -/
theorem dispatchRows_closed (hg : gs.closed? = some g) :
    ∀ (xs : List OutboxRow) (res : DispatchResult) (w : σ × Venue), (xs.map (·.key)).Nodup →
      (∀ x ∈ xs, w.2.store.HoldsClaimed claimant now x) →
      ClosedPass claimant now xs res w.1 w.2.broker (dispatchRows gs sink (xs.map (OutboxRow.claimFor claimant now)) res w) ∧
      ∀ k ∉ xs.map (·.key),
        (dispatchRows gs sink (xs.map (OutboxRow.claimFor claimant now)) res w).2.2.store.row? k = w.2.store.row? k := by
  intro xs
  induction xs with
  | nil =>
    intro res w _ _
    exact ⟨⟨rfl, by simp, by simp, rfl, rfl⟩, fun _ _ => rfl⟩
  | cons x xs ih =>
    intro res w hnd hheld
    obtain ⟨hx, htail⟩ := List.nodup_cons.1 hnd
    have hx₀ := hheld x List.mem_cons_self
    cases hs : x.submittable with
    | false =>
      set w₁ : σ × Venue := (w.1, { w.2 with store := (w.2.store.markFailed x.key).2 })
      have hstep : dispatchRow gs sink (x.claimFor claimant now) w = (.undecodable, w₁) :=
        dispatchRow_of_not_submittable (by simpa using hs) w
      obtain ⟨hpass, hframe⟩ := ih { res with failed := res.failed + 1 } w₁ htail
        fun y hy => (hheld y (List.mem_cons_of_mem x hy)).of_row?
          (Store.row?_markFailed_of_ne _ (OutboxRow.key_ne_of_nodup hnd hy))
      have htw : (x :: xs).takeWhile (!·.submittable) = x :: xs.takeWhile (!·.submittable) := by
        simp [hs]
      have hdw : (x :: xs).dropWhile (!·.submittable) = xs.dropWhile (!·.submittable) := by
        simp [hs]
      simp only [List.map_cons, dispatchRows, hstep]
      refine ⟨⟨?_, ?_, ?_, hpass.broker, hpass.sink⟩,
        Store.row?_frame_cons (fun k hk => Store.row?_markFailed_of_ne _ hk) hframe⟩
      · rw [hpass.result, htw, hdw, List.length_cons]
        simp only [DispatchResult.mk.injEq, true_and, and_true]
        omega
      · intro y hy
        rw [htw] at hy
        rcases List.mem_cons.1 hy with rfl | hy
        · rw [hframe y.key hx]
          exact hx₀.row?_markFailed
        · exact hpass.failed y hy
      · intro y hy
        rw [hdw] at hy
        exact hpass.released y hy
    | true =>
      have hs' : (x.claimFor claimant now).submittable = true := hs
      have hk : (x.claimFor claimant now).key ≠ "" := hx₀.key_ne
      have hstep : dispatchRow gs sink (x.claimFor claimant now) w = (.refused, w) :=
        dispatchRow_of_closed hg hs' rfl hk w
      obtain ⟨hn, hrows, hframe, hbroker⟩ := foldl_releaseStep (x :: xs) 0 w.2 hnd hheld
      have htw : (x :: xs).takeWhile (!·.submittable) = [] := by simp [hs]
      have hdw : (x :: xs).dropWhile (!·.submittable) = x :: xs := by simp [hs]
      simp only [List.map_cons, dispatchRows, hstep, releaseRows_eq]
      rw [List.map_cons] at hn hrows hframe hbroker
      refine ⟨⟨?_, ?_, ?_, hbroker, rfl⟩, hframe⟩
      · rw [hn, htw, hdw]
        simp
      · intro y hy
        rw [htw] at hy
        cases hy
      · intro y hy
        rw [hdw] at hy
        exact hrows y hy

end Closed

/-! ### A pass with the gates open -/

/-- The held rows that reach the broker with the gates open: those that can be submitted, less the
first when the broker is to fail its next call. -/
def acceptedRows (brokerFails : Bool) (xs : List OutboxRow) : List OutboxRow :=
  if brokerFails then (xs.filter (·.submittable)).drop 1 else xs.filter (·.submittable)

/-- The accepted rows the sink is told of: all, less the first when the sink is to refuse its next
report. -/
def toldRows (brokerFails sinkFails : Bool) (xs : List OutboxRow) : List OutboxRow :=
  if sinkFails then (acceptedRows brokerFails xs).drop 1 else acceptedRows brokerFails xs

section Rows

variable {x : OutboxRow} {xs : List OutboxRow}

@[simp] theorem acceptedRows_nil (bf : Bool) : acceptedRows bf [] = [] := by
  cases bf <;> rfl

@[simp] theorem toldRows_nil (bf sf : Bool) : toldRows bf sf [] = [] := by
  cases sf <;> simp [toldRows]

@[simp] theorem acceptedRows_cons_of_not (bf : Bool) (h : x.submittable = false) :
    acceptedRows bf (x :: xs) = acceptedRows bf xs := by
  simp [acceptedRows, h]

@[simp] theorem toldRows_cons_of_not (bf sf : Bool) (h : x.submittable = false) :
    toldRows bf sf (x :: xs) = toldRows bf sf xs := by
  simp [toldRows, h]

theorem acceptedRows_true_cons (h : x.submittable = true) : acceptedRows true (x :: xs) = acceptedRows false xs := by
  simp [acceptedRows, h]

theorem acceptedRows_false_cons (h : x.submittable = true) :
    acceptedRows false (x :: xs) = x :: acceptedRows false xs := by
  simp [acceptedRows, h]

theorem toldRows_true_cons (sf : Bool) (h : x.submittable = true) : toldRows true sf (x :: xs) = toldRows false sf xs := by
  simp [toldRows, acceptedRows_true_cons h]

theorem toldRows_false_true_cons (h : x.submittable = true) : toldRows false true (x :: xs) = toldRows false false xs := by
  simp [toldRows, acceptedRows_false_cons h]

theorem toldRows_false_false_cons (h : x.submittable = true) :
    toldRows false false (x :: xs) = x :: toldRows false false xs := by
  simp [toldRows, acceptedRows_false_cons h]

theorem length_toldRows_le (bf sf : Bool) (xs : List OutboxRow) :
    (toldRows bf sf xs).length ≤ (xs.filter (·.submittable)).length := by
  unfold toldRows acceptedRows
  split <;> split <;> simp

end Rows

/-- What a walk over held rows `xs` does with the gates open, from result `res`, recording sink
`rec` and broker `b`, ending at `out`. A row that cannot be submitted is marked failed. Every
other row is submitted under its key: a failure the broker is to inject fails the first of them,
which stays claimed; a refusal the sink is to inject refuses the first the broker accepts, which
stays sent; every other row is told to the sink with the broker id of the order held under its
key, and acked. -/
structure OpenPass (claimant : String) (now : Instant) (xs : List OutboxRow) (res : DispatchResult)
    (rec : Recorder) (b : Paper) (out : DispatchResult × Recorder × Venue) : Prop where
  result : out.1 = { res with sent := res.sent + (toldRows b.failNext.isSome rec.failNext.isSome xs).length,
                              failed := res.failed + (xs.filter (!·.submittable)).length,
                              errored := res.errored + ((xs.filter (·.submittable)).length -
                                (toldRows b.failNext.isSome rec.failNext.isSome xs).length) }
  failed : ∀ x ∈ xs, x.submittable = false →
    out.2.2.store.row? x.key = some { x.claimFor claimant now with status := .failed }
  brokerFailed : b.failNext.isSome → ∀ x ∈ (xs.filter (·.submittable)).take 1,
    out.2.2.store.row? x.key = some (x.claimFor claimant now)
  sinkFailed : rec.failNext.isSome → ∀ x ∈ (acceptedRows b.failNext.isSome xs).take 1,
    out.2.2.store.row? x.key = some { x.claimFor claimant now with status := .sent, sentAt := some now }
  acked : ∀ x ∈ toldRows b.failNext.isSome rec.failNext.isSome xs,
    out.2.2.store.row? x.key = some { x.claimFor claimant now with status := .acked, sentAt := some now }
  submits : out.2.2.broker.submits = b.submits + (acceptedRows b.failNext.isSome xs).length
  keeps : ∀ k o, b.byClient? k = some o → out.2.2.broker.byClient? k = some o
  holds : ∀ x ∈ acceptedRows b.failNext.isSome xs, (out.2.2.broker.byClient? x.key).isSome
  told : ∃ L, out.2.1.log = rec.log ++ L ∧
    L.map Prod.fst = (toldRows b.failNext.isSome rec.failNext.isSome xs).map OutboxRow.submission ∧
    ∀ e ∈ L, ∃ o, out.2.2.broker.byClient? e.1.key = some o ∧ e.2.brokerId = o.brokerId

namespace OpenPass

variable {claimant : String} {now : Instant} {x : OutboxRow} {xs : List OutboxRow} {res : DispatchResult}
  {rec : Recorder} {b : Paper} {out : DispatchResult × Recorder × Venue}

/-- A pass that starts at no count and has the gates open counts every row it claimed once. -/
theorem claimed_eq (h : OpenPass claimant now xs { claimed := xs.length } rec b out) :
    out.1.claimed = out.1.sent + out.1.released + out.1.failed + out.1.errored := by
  have hsplit : xs.length = (xs.filter (·.submittable)).length + (xs.filter (!·.submittable)).length := by
    simpa [List.countP_eq_length_filter] using List.length_eq_countP_add_countP (·.submittable) (l := xs)
  have hle := length_toldRows_le b.failNext.isSome rec.failNext.isSome xs
  rw [h.result]
  dsimp only
  omega

/-- A row that cannot be submitted, marked failed ahead of the walk over the rest. -/
theorem cons_failed (h : OpenPass claimant now xs { res with failed := res.failed + 1 } rec b out)
    (hx : x.submittable = false) (hrow : out.2.2.store.row? x.key = some { x.claimFor claimant now with status := .failed }) :
    OpenPass claimant now (x :: xs) res rec b out where
  result := by
    rw [h.result]
    simp [hx]
    omega
  failed y hy hys := by
    rcases List.mem_cons.1 hy with rfl | hy
    · exact hrow
    · exact h.failed y hy hys
  brokerFailed := by simpa [List.filter_cons, hx] using h.brokerFailed
  sinkFailed := by simpa [hx] using h.sinkFailed
  acked := by simpa [hx] using h.acked
  submits := by simpa [hx] using h.submits
  keeps := h.keeps
  holds := by simpa [hx] using h.holds
  told := by simpa [hx] using h.told

/-- Behind a head that can be submitted, the rows that cannot are the tail's, marked failed. -/
theorem failed_cons {res' : DispatchResult} {rec' : Recorder} {b' : Paper} (h : OpenPass claimant now xs res' rec' b' out)
    (hx : x.submittable = true) :
    ∀ y ∈ x :: xs, y.submittable = false → out.2.2.store.row? y.key = some { y.claimFor claimant now with status := .failed } := by
  intro y hy hys
  rcases List.mem_cons.1 hy with rfl | hy
  · rw [hx] at hys; cases hys
  · exact h.failed y hy hys

/-- The broker side of a walk whose head the broker answered: the head's submit is counted, and an
order is held under its key. -/
theorem broker_cons {res' : DispatchResult} {rec' : Recorder} {b' : Paper} {ack : BrokerAck}
    (h : OpenPass claimant now xs res' rec' b' out) (hx : x.submittable = true) (hb : b.failNext = none)
    (hans : b.Answered b' x.key ack) :
    out.2.2.broker.submits = b.submits + (acceptedRows b.failNext.isSome (x :: xs)).length ∧
      ∀ y ∈ acceptedRows b.failNext.isSome (x :: xs), (out.2.2.broker.byClient? y.key).isSome := by
  rw [hb, Option.isSome_none, acceptedRows_false_cons hx]
  refine ⟨?_, fun y hy => ?_⟩
  · rw [h.submits, hans.submits, hans.failNext]
    simp
    omega
  · rcases List.mem_cons.1 hy with rfl | hy
    · obtain ⟨o, ho, -⟩ := hans.holds
      simp [h.keeps _ o ho]
    · exact h.holds y (by simpa [hans.failNext] using hy)

/-- A row the broker fails, left claimed, ahead of the walk over the rest with the failure spent. -/
theorem cons_brokerFailed {m : String}
    (h : OpenPass claimant now xs { res with errored := res.errored + 1 } rec { b with failNext := none } out)
    (hx : x.submittable = true) (hf : b.failNext = some m)
    (hrow : out.2.2.store.row? x.key = some (x.claimFor claimant now)) :
    OpenPass claimant now (x :: xs) res rec b out where
  result := by
    have hle := length_toldRows_le false rec.failNext.isSome xs
    rw [h.result]
    simp only [hf, Option.isSome_some, Option.isSome_none, toldRows_true_cons _ hx, List.filter_cons, hx, Bool.not_true,
      Bool.false_eq_true, ↓reduceIte, List.length_cons, DispatchResult.mk.injEq, true_and]
    omega
  failed := h.failed_cons hx
  brokerFailed _ y hy := by
    simp only [List.filter_cons, hx, ↓reduceIte, List.take_succ_cons, List.take_zero, List.mem_singleton] at hy
    rw [hy]
    exact hrow
  sinkFailed := by simpa [hf, acceptedRows_true_cons hx] using h.sinkFailed
  acked := by simpa [hf, toldRows_true_cons _ hx] using h.acked
  submits := by simpa [hf, acceptedRows_true_cons hx] using h.submits
  keeps := h.keeps
  holds := by simpa [hf, acceptedRows_true_cons hx] using h.holds
  told := by simpa [hf, toldRows_true_cons _ hx] using h.told

/-- A row the broker accepts and the sink refuses, left sent, ahead of the walk over the rest with
the refusal spent. -/
theorem cons_sinkFailed {m : String} {b' : Paper} {ack : BrokerAck}
    (h : OpenPass claimant now xs { res with errored := res.errored + 1 } { rec with failNext := none } b' out)
    (hx : x.submittable = true) (hb : b.failNext = none) (hf : rec.failNext = some m) (hans : b.Answered b' x.key ack)
    (hrow : out.2.2.store.row? x.key = some { x.claimFor claimant now with status := .sent, sentAt := some now }) :
    OpenPass claimant now (x :: xs) res rec b out where
  result := by
    have hle := length_toldRows_le false false xs
    rw [h.result]
    simp only [hb, hf, hans.failNext, Option.isSome_none, Option.isSome_some, toldRows_false_true_cons hx,
      List.filter_cons, hx, Bool.not_true, Bool.false_eq_true, ↓reduceIte, List.length_cons, DispatchResult.mk.injEq,
      true_and]
    omega
  failed := h.failed_cons hx
  brokerFailed hsome := by simp [hb] at hsome
  sinkFailed _ y hy := by
    simp only [hb, Option.isSome_none, acceptedRows_false_cons hx, List.take_succ_cons, List.take_zero,
      List.mem_singleton] at hy
    rw [hy]
    exact hrow
  acked := by simpa [hb, hf, hans.failNext, toldRows_false_true_cons hx] using h.acked
  submits := (h.broker_cons hx hb hans).1
  keeps k o ho := h.keeps k o (hans.keeps k o ho)
  holds := (h.broker_cons hx hb hans).2
  told := by simpa [hb, hf, hans.failNext, toldRows_false_true_cons hx] using h.told

/-- A row the broker accepts and the sink is told of, acked, ahead of the walk over the rest. -/
theorem cons_sent {b' : Paper} {ack : BrokerAck}
    (h : OpenPass claimant now xs { res with sent := res.sent + 1 } { rec with log := rec.log ++ [(x.submission, ack)] }
      b' out)
    (hx : x.submittable = true) (hb : b.failNext = none) (hr : rec.failNext = none) (hans : b.Answered b' x.key ack)
    (hrow : out.2.2.store.row? x.key = some { x.claimFor claimant now with status := .acked, sentAt := some now }) :
    OpenPass claimant now (x :: xs) res rec b out where
  result := by
    rw [h.result]
    simp only [hb, hr, hans.failNext, Option.isSome_none, toldRows_false_false_cons hx, List.filter_cons, hx,
      Bool.not_true, Bool.false_eq_true, ↓reduceIte, List.length_cons, DispatchResult.mk.injEq, true_and]
    omega
  failed := h.failed_cons hx
  brokerFailed hsome := by simp [hb] at hsome
  sinkFailed hsome := by simp [hr] at hsome
  acked y hy := by
    rw [hb, hr, Option.isSome_none, toldRows_false_false_cons hx] at hy
    rcases List.mem_cons.1 hy with rfl | hy
    · exact hrow
    · exact h.acked y (by simpa [hans.failNext, hr] using hy)
  submits := (h.broker_cons hx hb hans).1
  keeps k o ho := h.keeps k o (hans.keeps k o ho)
  holds := (h.broker_cons hx hb hans).2
  told := by
    obtain ⟨L, hlog, hmap, hids⟩ := h.told
    obtain ⟨o, ho, hid⟩ := hans.holds
    refine ⟨(x.submission, ack) :: L, by simp [hlog], ?_, ?_⟩
    · simpa [hb, hr, hans.failNext, toldRows_false_false_cons hx] using hmap
    · intro e he
      rcases List.mem_cons.1 he with rfl | he
      · exact ⟨o, by simpa using h.keeps _ o ho, hid⟩
      · exact hids e he

end OpenPass

section Open

variable {gs : Gates} {claimant : String}

/-- **The walk with the gates open**, by induction over the held rows with the result, the sink
and the venue generalized; each row's outcome is one of the four steps of `OpenPass`. -/
theorem dispatchRows_open (hg : gs.closed? = none) :
    ∀ (xs : List OutboxRow) (res : DispatchResult) (rec : Recorder) (v : Venue), (xs.map (·.key)).Nodup →
      (∀ x ∈ xs, v.store.HoldsClaimed claimant v.now x) →
      OpenPass claimant v.now xs res rec v.broker
        (dispatchRows gs Recorder.sink (xs.map (OutboxRow.claimFor claimant v.now)) res (rec, v)) ∧
      ∀ k ∉ xs.map (·.key),
        (dispatchRows gs Recorder.sink (xs.map (OutboxRow.claimFor claimant v.now)) res (rec, v)).2.2.store.row? k =
          v.store.row? k := by
  intro xs
  induction xs with
  | nil =>
    intro res rec v _ _
    simp only [List.map_nil, dispatchRows]
    exact ⟨⟨by simp, by simp, by simp, by simp, by simp, by simp, fun _ _ h => h, by simp, ⟨[], by simp, by simp, by simp⟩⟩,
      fun _ _ => trivial⟩
  | cons x xs ih =>
    intro res rec v hnd hheld
    obtain ⟨hx, htail⟩ := List.nodup_cons.1 hnd
    have hx₀ := hheld x List.mem_cons_self
    have hk : (x.claimFor claimant v.now).key ≠ "" := hx₀.key_ne
    -- the rest stay held in a store that changed at most the first row
    have hrest : ∀ s : Store, (∀ k ≠ x.key, s.row? k = v.store.row? k) → ∀ y ∈ xs, s.HoldsClaimed claimant v.now y :=
      fun s hs y hy => (hheld y (List.mem_cons_of_mem x hy)).of_row? (hs _ (OutboxRow.key_ne_of_nodup hnd hy))
    cases hs : x.submittable with
    | false =>
      set v₁ : Venue := { v with store := (v.store.markFailed x.key).2 }
      have hstep : dispatchRow gs Recorder.sink (x.claimFor claimant v.now) (rec, v) = (.undecodable, (rec, v₁)) :=
        dispatchRow_of_not_submittable (by simpa using hs) _
      have h₁ : ∀ k ≠ x.key, v₁.store.row? k = v.store.row? k := fun k hk => Store.row?_markFailed_of_ne _ hk
      obtain ⟨hpass, hfr⟩ := ih { res with failed := res.failed + 1 } rec v₁ htail (hrest _ h₁)
      simp only [List.map_cons, dispatchRows, hstep]
      exact ⟨hpass.cons_failed hs (by rw [hfr x.key hx]; exact hx₀.row?_markFailed), Store.row?_frame_cons h₁ hfr⟩
    | true =>
      have hs' : (x.claimFor claimant v.now).submittable = true := hs
      cases hb : v.broker.failNext with
      | some m =>
        set v₁ : Venue := { v with broker := { v.broker with failNext := none } }
        have hstep : dispatchRow gs Recorder.sink (x.claimFor claimant v.now) (rec, v) = (.errored, (rec, v₁)) :=
          dispatchRow_of_broker_failure hg hs' rfl hk hb
        obtain ⟨hpass, hfr⟩ := ih { res with errored := res.errored + 1 } rec v₁ htail (hrest _ fun _ _ => rfl)
        simp only [List.map_cons, dispatchRows, hstep]
        exact ⟨hpass.cons_brokerFailed hs hb (by rw [hfr x.key hx]; exact hx₀.row),
          Store.row?_frame_cons (fun _ _ => rfl) hfr⟩
      | none =>
        obtain ⟨ack, b', ids', hans, hrefused, htold⟩ := dispatchRow_of_accepted hg hs' rfl hk rec v hb
        set v₁ : Venue := ({ v with broker := b', ids := ids' } : Venue).markSent x.key
        have h₁ : ∀ k ≠ x.key, v₁.store.row? k = v.store.row? k := fun k hk => Store.row?_markSent_of_ne _ _ hk
        cases hr : rec.failNext with
        | some m =>
          obtain ⟨hpass, hfr⟩ := ih { res with errored := res.errored + 1 } { rec with failNext := none } v₁ htail
            (hrest _ h₁)
          simp only [List.map_cons, dispatchRows, hrefused m hr]
          exact ⟨hpass.cons_sinkFailed hs hb hr hans (by rw [hfr x.key hx]; exact (hx₀.row?_markSent v.now).1),
            Store.row?_frame_cons h₁ hfr⟩
        | none =>
          set v₂ : Venue := v₁.markAcked x.key
          have h₂ : ∀ k ≠ x.key, v₂.store.row? k = v.store.row? k :=
            fun k hk => (Store.row?_markAcked_of_ne _ hk).trans (h₁ k hk)
          obtain ⟨hpass, hfr⟩ := ih { res with sent := res.sent + 1 }
            { rec with log := rec.log ++ [(x.submission, ack)] } v₂ htail (hrest _ h₂)
          simp only [List.map_cons, dispatchRows, htold hr]
          exact ⟨hpass.cons_sent hs hb hr hans (by rw [hfr x.key hx]; exact (hx₀.row?_markSent v.now).2),
            Store.row?_frame_cons h₂ hfr⟩

end Open

/-! ### One pass -/

theorem dispatchRows_claimed {σ : Type} (gs : Gates) (sink : Sink σ) :
    ∀ (rows : List OutboxRow) (res : DispatchResult) (w : σ × Venue), (dispatchRows gs sink rows res w).1.claimed = res.claimed := by
  intro rows
  induction rows with
  | nil => intro res w; rfl
  | cons row rest ih =>
    intro res w
    simp only [dispatchRows]
    split <;> simp [ih]

/-- A pass claims with the batch it is given, or with one for a batch of zero or less, and walks
the rows it claimed from the store the claim leaves. -/
theorem dispatchOnce_eq {σ : Type} (gs : Gates) (sink : Sink σ) (claimant : String) (batch : Int) (w : σ × Venue) :
    dispatchOnce gs sink claimant batch w =
      dispatchRows gs sink (w.2.store.claimBatch w.2.now (max batch 1) claimant).1
        { claimed := (w.2.store.claimBatch w.2.now (max batch 1) claimant).1.length }
        (w.1, { w.2 with store := (w.2.store.claimBatch w.2.now (max batch 1) claimant).2 }) := by
  have hb : (if batch ≤ 0 then 1 else batch) = max batch 1 := by split <;> omega
  simp only [dispatchOnce, hb]

/-- After a claim on a sound store, the rows it took have distinct keys and the store holds each
one's claimed copy; every other row is as it was, under a key none of them has. -/
theorem Store.Sound.holds_claimBatch {s : Store} (hs : s.Sound) (now : Instant) (limit : Int) (claimant : String) :
    ((s.pendingRows.take limit.toNat).map (·.key)).Nodup ∧
      (∀ x ∈ s.pendingRows.take limit.toNat, (s.claimBatch now limit claimant).2.HoldsClaimed claimant now x) ∧
      ∀ r ∈ s.outbox, r ∉ s.pendingRows.take limit.toNat →
        r.key ∉ (s.pendingRows.take limit.toNat).map (·.key) ∧ (s.claimBatch now limit claimant).2.row? r.key = some r := by
  obtain ⟨hclaim, -⟩ := hs.claimBatch_oldest now limit claimant
  set chosen := s.pendingRows.take limit.toNat
  set t : Store := { s with outbox := s.outbox.map fun r => if r ∈ chosen then r.claimFor claimant now else r }
  have ht : t.Sound := by
    have h := hs.perform (.claim now limit claimant)
    rwa [Store.Op.perform, hclaim] at h
  rw [hclaim]
  have hchosen : ∀ x ∈ chosen, x ∈ s.outbox ∧ x.status = .pending := fun x hx =>
    Store.mem_pendingRows.1 (List.mem_of_mem_take hx)
  refine ⟨hs.keys_nodup.sublist (((List.take_sublist _ _).trans List.filter_sublist).map _), fun x hx => ?_,
    fun r hr hnot => ⟨?_, Store.row?_of_mem ht.keys_nodup (List.mem_map.2 ⟨r, hr, if_neg hnot⟩)⟩⟩
  · -- a chosen row was pending, so it carried no stamps, and its claimed copy replaced it
    obtain ⟨hxo, hxp⟩ := hchosen x hx
    obtain ⟨hb, ha, hsent⟩ := (hs.stamped x hxo).pending hxp
    have hmem : x.claimFor claimant now ∈ t.outbox := List.mem_map.2 ⟨x, hxo, if_pos hx⟩
    exact ⟨Store.row?_of_mem ht.keys_nodup hmem, fun he => hs.empty_not_mem (he ▸ List.mem_map_of_mem hxo), hxp,
      hb, ha, hsent⟩
  · -- a chosen row with the key of a row not chosen would be that row
    intro hk
    obtain ⟨c, hc, hck⟩ := List.mem_map.1 hk
    have hcr : c = r := Option.some.inj ((Store.row?_of_mem hs.keys_nodup (hchosen c hc).1).symm.trans
      (hck ▸ Store.row?_of_mem hs.keys_nodup hr))
    exact hnot (hcr ▸ hc)

/-- **The outcome of a dispatch pass**, over every store its operations reach, every gate state,
broker and recording sink, and every batch size (one for a batch of zero or less). The pass
claims the pending rows of least id, as many as the batch allows, in increasing order of id, and
leaves every other row as it was. With a gate closed, the claimed rows up to the first one that
can be submitted are marked failed, and that row and every later one are released to pending with
their claim cleared, the broker untouched. With the gates open, every claimed row that cannot be
submitted is marked failed, and every other one is submitted once under its key and acked with
the sink told the broker id of the order held under that key; except that the first one the broker
fails, when it is to fail its next call, stays claimed, and the first one the sink refuses, when it
is to refuse its next report, stays sent. Either way the claimed rows are counted once each: as
sent, released, failed or errored. -/
theorem dispatchOnce_outcome (ops : List Store.Op) (now : Instant) (ids : IdSource) (broker : Paper) (gs : Gates)
    (rec : Recorder) (claimant : String) (batch : Int) :
    let s := ({} : Store).run ops
    let chosen := s.pendingRows.take (max batch 1).toNat
    let out := dispatchOnce gs Recorder.sink claimant batch (rec, { now := now, ids := ids, store := s, broker := broker })
    (out.1.claimed = chosen.length ∧ chosen.length = min (max batch 1).toNat s.pendingRows.length ∧
      (chosen.map (·.id)).Pairwise (· < ·) ∧ ∀ r ∈ s.pendingRows, r ∉ chosen → ∀ c ∈ chosen, c.id < r.id) ∧
    (∀ r ∈ s.outbox, r ∉ chosen → out.2.2.store.row? r.key = some r) ∧
    (gs.closed?.isSome → ClosedPass claimant now chosen { claimed := chosen.length } rec broker out) ∧
    (gs.closed? = none → OpenPass claimant now chosen { claimed := chosen.length } rec broker out) ∧
    out.1.claimed = out.1.sent + out.1.released + out.1.failed + out.1.errored := by
  intro s chosen out
  have hs : s.Sound := Store.sound_empty.run ops
  obtain ⟨hclaim, hlen, hids, holdest⟩ := hs.claimBatch_oldest now (max batch 1) claimant
  obtain ⟨hnd, hheld, hrest⟩ := hs.holds_claimBatch now (max batch 1) claimant
  set v : Venue := { now := now, ids := ids, store := (s.claimBatch now (max batch 1) claimant).2, broker := broker }
  -- the pass walks the claimed copies of the chosen rows from the claimed store
  have hout : out = dispatchRows gs Recorder.sink (chosen.map (OutboxRow.claimFor claimant now))
      { claimed := chosen.length } (rec, v) := by
    simp only [out, dispatchOnce_eq, congrArg Prod.fst hclaim, List.length_map]
    rfl
  have hwalk : ∀ k ∉ chosen.map (·.key), out.2.2.store.row? k = v.store.row? k := by
    rw [hout]
    cases hg : gs.closed? with
    | none => exact (dispatchRows_open hg chosen _ rec v hnd hheld).2
    | some g => exact (dispatchRows_closed hg chosen _ (rec, v) hnd hheld).2
  refine ⟨⟨by rw [hout, dispatchRows_claimed], hlen, hids, holdest⟩, fun r hr hnot => ?_, fun hg => ?_, fun hg => ?_, ?_⟩
  · obtain ⟨hkey, hrow⟩ := hrest r hr hnot
    rw [hwalk r.key hkey]
    exact hrow
  · obtain ⟨g, hg⟩ := Option.isSome_iff_exists.1 hg
    rw [hout]
    exact (dispatchRows_closed hg chosen _ (rec, v) hnd hheld).1
  · rw [hout]
    exact (dispatchRows_open hg chosen _ rec v hnd hheld).1
  · rw [hout]
    cases hg : gs.closed? with
    | none => exact (dispatchRows_open hg chosen _ rec v hnd hheld).1.claimed_eq
    | some g => exact (dispatchRows_closed hg chosen _ (rec, v) hnd hheld).1.claimed_eq

/-- A pass with the gates open over a store with one queued row. -/
theorem dispatchOnce_outcome_of_one_queued_row :
    let s := ({} : Store).run [.enqueue 0 "run" "k" "{}"]
    let chosen := s.pendingRows.take (max (1 : Int) 1).toNat
    let out := dispatchOnce {} Recorder.sink "d" 1 ({}, { now := 0, ids := {}, store := s, broker := {} })
    ({} : Gates).closed? = none ∧ OpenPass "d" 0 chosen { claimed := chosen.length } {} {} out := by
  intro s chosen out
  exact ⟨rfl, (dispatchOnce_outcome [.enqueue 0 "run" "k" "{}"] 0 {} {} {} {} "d" 1).2.2.2.1 rfl⟩

end TradeDesk
