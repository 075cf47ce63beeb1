import TradeDesk.Ledger.Journal
/-!
# The log replays to the standing

A ledger keeps its log and the standing the log determines side by side. An accepted append
logs its entries and applies each with `Standing.apply`, which is also the step a replay of the
log takes, so the two cannot drift apart as long as nothing is applied without being logged and
nothing is logged without being applied.

`perform_ok` says what an accepted operation does: it logs exactly its own entries (a batch its
fills in canonical order), applies them, and touches nothing but the last sequence number. For a
batch this rests on `foldlM_appendFillSeq`: the batch is checked whole before any of it is
applied, and once the check passes no append of it can be refused. A refused operation returns
no ledger, so a run goes on with the ledger it had.

`Replays` is the invariant: the standing is the replay of the log from the initial cash. A new
ledger has it and every accepted operation keeps it, so `verify` holds of every ledger a run of
operations reaches, and the log of that ledger is the entries of the accepted operations in the
order they were accepted.
-/

namespace TradeDesk

namespace Ledger

@[simp] theorem record_entries (l : Ledger) (e : Entry) : (l.record e).entries = l.entries ++ [e] := rfl

@[simp] theorem record_standing (l : Ledger) (e : Entry) : (l.record e).standing = l.standing.apply e := rfl

@[simp] theorem record_initialCash (l : Ledger) (e : Entry) : (l.record e).initialCash = l.initialCash := rfl

@[simp] theorem record_lastSeq (l : Ledger) (e : Entry) : (l.record e).lastSeq = l.lastSeq := rfl

/-- The ledger with entries logged and applied in order. -/
def recordAll (l : Ledger) (es : List Entry) : Ledger := es.foldl record l

theorem recordAll_cons (l : Ledger) (e : Entry) (es : List Entry) :
    l.recordAll (e :: es) = (l.record e).recordAll es := rfl

@[simp] theorem entries_recordAll (l : Ledger) (es : List Entry) :
    (l.recordAll es).entries = l.entries ++ es := by
  induction es generalizing l with
  | nil => simp [recordAll]
  | cons e es ih => rw [recordAll_cons, ih]; simp

@[simp] theorem standing_recordAll (l : Ledger) (es : List Entry) :
    (l.recordAll es).standing = es.foldl Standing.apply l.standing := by
  induction es generalizing l with
  | nil => rfl
  | cons e es ih => rw [recordAll_cons, ih]; rfl

@[simp] theorem initialCash_recordAll (l : Ledger) (es : List Entry) :
    (l.recordAll es).initialCash = l.initialCash := by
  induction es generalizing l with
  | nil => rfl
  | cons e es ih => rw [recordAll_cons, ih]; rfl

/-- The ledger with its last sequence number set. -/
def withLastSeq (l : Ledger) (s : Option UInt64) : Ledger := { l with lastSeq := s }

@[simp] theorem lastSeq_withLastSeq (l : Ledger) (s : Option UInt64) : (l.withLastSeq s).lastSeq = s := rfl

@[simp] theorem entries_withLastSeq (l : Ledger) (s : Option UInt64) : (l.withLastSeq s).entries = l.entries := rfl

@[simp] theorem standing_withLastSeq (l : Ledger) (s : Option UInt64) :
    (l.withLastSeq s).standing = l.standing := rfl

@[simp] theorem initialCash_withLastSeq (l : Ledger) (s : Option UInt64) :
    (l.withLastSeq s).initialCash = l.initialCash := rfl

@[simp] theorem withLastSeq_withLastSeq (l : Ledger) (s t : Option UInt64) :
    (l.withLastSeq s).withLastSeq t = l.withLastSeq t := rfl

theorem recordAll_withLastSeq (l : Ledger) (s : Option UInt64) (es : List Entry) :
    (l.withLastSeq s).recordAll es = (l.recordAll es).withLastSeq s := by
  induction es generalizing l with
  | nil => rfl
  | cons e es ih => exact ih (l.record e)

/-! ### Batches -/

/-- The fills of a batch, as logged. -/
def fillEntries (batch : List TaggedFill) : List Entry := batch.map fun tf => .fill tf.fill

@[simp] theorem fillEntries_nil : fillEntries [] = [] := rfl

@[simp] theorem fillEntries_cons (tf : TaggedFill) (rest : List TaggedFill) :
    fillEntries (tf :: rest) = .fill tf.fill :: fillEntries rest := rfl

/-- A batch passes its check when its head does, both the fill and its number, and the rest
passes after the head's number. -/
theorem checkBatch_cons_eq_none {last : Option UInt64} {tf : TaggedFill} {rest : List TaggedFill} :
    checkBatch last (tf :: rest) = none ↔
      tf.fill.check = none ∧ seqAllowed last tf.seq = none ∧ checkBatch (some tf.seq) rest = none := by
  simp only [checkBatch]
  cases tf.fill.check <;> cases seqAllowed last tf.seq <;> simp

/-- A batch that passes its check is appended whole: every fill is logged and applied in order,
and the last sequence number becomes that of the batch's last fill. -/
theorem foldlM_appendFillSeq (l : Ledger) (batch : List TaggedFill) (h : checkBatch l.lastSeq batch = none) :
    batch.foldlM (fun l tf => l.appendFillSeq tf.fill tf.seq) l =
      .ok ((l.recordAll (fillEntries batch)).withLastSeq ((batch.getLast?.map (·.seq)).or l.lastSeq)) := by
  induction batch generalizing l with
  | nil => rfl
  | cons tf rest ih =>
    obtain ⟨hc, hs, hr⟩ := checkBatch_cons_eq_none.1 h
    have hstep : l.appendFillSeq tf.fill tf.seq = .ok ((l.record (.fill tf.fill)).withLastSeq (some tf.seq)) := by
      simp only [appendFillSeq, hs, hc]; rfl
    have hlast : (rest.getLast?.map (·.seq)).or (some tf.seq) = ((tf :: rest).getLast?.map (·.seq)).or l.lastSeq := by
      rw [List.getLast?_cons]
      cases rest.getLast? <;> rfl
    rw [List.foldlM_cons, hstep]
    refine (ih _ hr).trans ?_
    rw [recordAll_withLastSeq, withLastSeq_withLastSeq, lastSeq_withLastSeq, hlast, fillEntries_cons,
      recordAll_cons]

/-- A batch is accepted exactly when its canonical order passes the check, and then it is
appended in that order. -/
theorem applyCanonical_eq_ok {l l' : Ledger} {batch : List TaggedFill} :
    l.applyCanonical batch = .ok l' ↔
      checkBatch l.lastSeq (TaggedFill.sortCanonical batch) = none ∧
      l' = (l.recordAll (fillEntries (TaggedFill.sortCanonical batch))).withLastSeq
        (((TaggedFill.sortCanonical batch).getLast?.map (·.seq)).or l.lastSeq) := by
  unfold applyCanonical
  dsimp only
  split
  · rename_i e he
    simp [he]
  · rename_i he
    rw [foldlM_appendFillSeq _ _ he]
    simp [he, eq_comm]

/-! ### Operations and runs -/

/-- An operation on a ledger. -/
inductive Op where
  | fill (f : Fill)
  | fillSeq (f : Fill) (seq : UInt64)
  | cash (amount : Int64) (reason : String)
  | batch (fills : List TaggedFill)
  deriving Repr, DecidableEq, Inhabited

/-- Performs an operation. -/
def perform (l : Ledger) : Op → Except LedgerError Ledger
  | .fill f => l.appendFill f
  | .fillSeq f seq => l.appendFillSeq f seq
  | .cash amount reason => l.appendCash amount reason
  | .batch fills => l.applyCanonical fills

/-- What an operation logs when it is accepted: a fill, a cash adjustment, or a batch's fills in
canonical order. -/
def Op.entries : Op → List Entry
  | .fill f => [.fill f]
  | .fillSeq f _ => [.fill f]
  | .cash amount reason => [.cash { amount, reason }]
  | .batch fills => fillEntries (TaggedFill.sortCanonical fills)

/-- Performs operations in order; a refused one leaves the ledger as it was. -/
def run (l : Ledger) : List Op → Ledger
  | [] => l
  | op :: ops =>
    match l.perform op with
    | .ok l' => l'.run ops
    | .error _ => l.run ops

/-- What the accepted operations of a run log, in the order they are accepted. -/
def accepted (l : Ledger) : List Op → List Entry
  | [] => []
  | op :: ops =>
    match l.perform op with
    | .ok l' => op.entries ++ l'.accepted ops
    | .error _ => l.accepted ops

/-- **What an accepted operation does.** It logs and applies its own entries and changes nothing
else but the last sequence number. -/
theorem perform_ok {l l' : Ledger} {op : Op} (h : l.perform op = .ok l') :
    l' = (l.recordAll op.entries).withLastSeq l'.lastSeq := by
  cases op with
  | fill f =>
    simp only [perform, appendFill] at h
    split at h
    · cases h
    · cases h; rfl
  | fillSeq f seq =>
    simp only [perform, appendFillSeq] at h
    split at h
    · cases h
    · split at h
      · cases h
      · cases h; rfl
  | cash amount reason =>
    simp only [perform, appendCash] at h
    split at h
    · cases h
    · cases h; rfl
  | batch fills =>
    obtain ⟨-, rfl⟩ := applyCanonical_eq_ok.1 h
    rfl

theorem entries_of_perform_ok {l l' : Ledger} {op : Op} (h : l.perform op = .ok l') :
    l'.entries = l.entries ++ op.entries := by
  rw [perform_ok h]; simp

theorem initialCash_of_perform_ok {l l' : Ledger} {op : Op} (h : l.perform op = .ok l') :
    l'.initialCash = l.initialCash := by
  rw [perform_ok h]; simp

/-- A run logs what its accepted operations log, after what the ledger held. -/
theorem run_entries (l : Ledger) (ops : List Op) : (l.run ops).entries = l.entries ++ l.accepted ops := by
  induction ops generalizing l with
  | nil => simp [run, accepted]
  | cons op ops ih =>
    cases hp : l.perform op with
    | error e => simp only [run, accepted, hp, ih]
    | ok l' => simp only [run, accepted, hp, ih, entries_of_perform_ok hp, List.append_assoc]

theorem run_initialCash (l : Ledger) (ops : List Op) : (l.run ops).initialCash = l.initialCash := by
  induction ops generalizing l with
  | nil => rfl
  | cons op ops ih =>
    cases hp : l.perform op with
    | error e => simp only [run, hp, ih]
    | ok l' => simp only [run, hp, ih, initialCash_of_perform_ok hp]

/-! ### The invariant -/

/-- The standing is what the log replays to from the initial cash. -/
def Replays (l : Ledger) : Prop := l.standing = Standing.replay l.initialCash l.entries

theorem replays_new (c : Int64) : (Ledger.new c).Replays := rfl

theorem Replays.recordAll {l : Ledger} (h : l.Replays) (es : List Entry) : (l.recordAll es).Replays := by
  unfold Replays at h ⊢
  rw [standing_recordAll, entries_recordAll, initialCash_recordAll, h, Standing.replay, Standing.replay,
    List.foldl_append]

theorem Replays.perform {l l' : Ledger} {op : Op} (h : l.Replays) (hp : l.perform op = .ok l') : l'.Replays := by
  rw [perform_ok hp]
  exact h.recordAll op.entries

theorem Replays.run {l : Ledger} (h : l.Replays) (ops : List Op) : (l.run ops).Replays := by
  induction ops generalizing l with
  | nil => exact h
  | cons op ops ih =>
    cases hp : l.perform op with
    | error e => simp only [Ledger.run, hp]; exact ih h
    | ok l' => simp only [Ledger.run, hp]; exact ih (h.perform hp)

theorem verify_of_replays {l : Ledger} (h : l.Replays) : l.verify = true := by
  unfold verify
  rw [← h]
  exact beq_self_eq_true _

/-- Logging entries one by one onto a new ledger applies them as a replay does. -/
theorem standing_recordAll_new (c : Int64) (es : List Entry) :
    ((Ledger.new c).recordAll es).standing = Standing.replay c es := by
  have h := (replays_new c).recordAll es
  unfold Replays at h
  rw [h, initialCash_recordAll, entries_recordAll]
  rfl

/-- **The log replays to the standing.** After any operations on a new ledger, accepted or
refused, the log holds the entries of the accepted ones in the order they were accepted, the
standing is the replay of that log from the initial cash, and the ledger verifies. Logging any
entries whatever one by one, checked or not, gives the standing of their replay. -/
theorem standing_replays_log (c : Int64) (ops : List Op) :
    ((Ledger.new c).run ops).entries = (Ledger.new c).accepted ops ∧
    ((Ledger.new c).run ops).standing = Standing.replay c ((Ledger.new c).run ops).entries ∧
    ((Ledger.new c).run ops).verify = true ∧
    ∀ es : List Entry, (es.foldl record (Ledger.new c)).standing = Standing.replay c es := by
  have hr := (replays_new c).run ops
  refine ⟨by simp [run_entries, Ledger.new], ?_, verify_of_replays hr, standing_recordAll_new c⟩
  rw [hr, run_initialCash]
  rfl

end Ledger

end TradeDesk
