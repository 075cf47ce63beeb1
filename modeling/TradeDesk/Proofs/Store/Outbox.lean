import Mathlib.Data.List.Nodup
import TradeDesk.Store.Outbox
import TradeDesk.Store.Inbox
/-!
# What the outbox operations change

Every outbox operation but `enqueue` works on rows that are already there, one key at a time,
and keeps the keys of the rows in their order. What matters for the broker is which rows are
still waiting to reach it (pending, or claimed by a dispatcher): `Settles` is a change after
which every waiting row has a key that was waiting before. A guarded transition settles when
its change never makes a row wait, a claim settles because the rows it claims were pending,
and a release settles because the row it releases was claimed; only an enqueue brings a new key
into the outbox.

A transition on one key leaves the row of every other key as it was (`row?_transition_of_ne`),
which is what lets a pass over a list of rows reason about the rows it has not reached yet.
-/

namespace TradeDesk

/-- A row waiting to reach the broker: pending, or claimed by a dispatcher. -/
def OutboxRow.Waiting (r : OutboxRow) : Prop := r.status = .pending ∨ r.status = .claimed

namespace Store

/-- The keys of the outbox, in order. -/
def keys (s : Store) : List String := s.outbox.map (·.key)

theorem mem_of_row? {s : Store} {key : String} {r : OutboxRow} (h : s.row? key = some r) :
    r ∈ s.outbox ∧ r.key = key :=
  ⟨List.mem_of_find?_eq_some h, by simpa using List.find?_some h⟩

/-- With keys naming one row each, a row is the row of its key. -/
theorem row?_of_mem {s : Store} {r : OutboxRow} (hk : s.keys.Nodup) (hr : r ∈ s.outbox) : s.row? r.key = some r := by
  cases h : s.row? r.key with
  | none =>
    have := List.find?_eq_none.1 h r hr
    simp at this
  | some x =>
    obtain ⟨hx, hxk⟩ := mem_of_row? h
    rw [List.inj_on_of_nodup_map hk hx hr hxk]

theorem row?_of_mem' {s : Store} {r : OutboxRow} (hr : r ∈ s.outbox) : (s.row? r.key).isSome := by
  cases h : s.row? r.key with
  | none => simpa using List.find?_eq_none.1 h r hr
  | some x => rfl

theorem row?_congr {s s' : Store} (h : s'.outbox = s.outbox) (k : String) : s'.row? k = s.row? k := by
  simp only [row?, h]

/-- A change of the store that keeps the outbox's keys in order and starts no new key waiting. -/
structure Settles (s s' : Store) : Prop where
  keys : s'.keys = s.keys
  waiting : ∀ r' ∈ s'.outbox, r'.Waiting → ∃ r ∈ s.outbox, r.Waiting ∧ r.key = r'.key

theorem Settles.refl (s : Store) : Settles s s := ⟨rfl, fun r hr hw => ⟨r, hr, hw, rfl⟩⟩

theorem Settles.trans {s s' s'' : Store} (h₁ : Settles s s') (h₂ : Settles s' s'') : Settles s s'' where
  keys := h₂.keys.trans h₁.keys
  waiting := fun r'' hr'' hw'' => by
    obtain ⟨r', hr', hw', hk'⟩ := h₂.waiting r'' hr'' hw''
    obtain ⟨r, hr, hw, hk⟩ := h₁.waiting r' hr' hw'
    exact ⟨r, hr, hw, hk.trans hk'⟩

theorem settles_of_outbox_eq {s s' : Store} (h : s'.outbox = s.outbox) : Settles s s' := by
  refine ⟨by simp [keys, h], fun r hr hw => ⟨r, ?_, hw, rfl⟩⟩
  rwa [h] at hr

/-! ### Guarded transitions -/

/-- A change that keeps a row's key. -/
def KeepsKey (change : OutboxRow → Option OutboxRow) : Prop := ∀ r r', change r = some r' → r'.key = r.key

/-- A transition replaces the row of its key, and only when its change applies. -/
theorem transition_cases (s : Store) (key : String) (change : OutboxRow → Option OutboxRow) :
    (s.transition key change).2 = s ∨
      ∃ r r', s.row? key = some r ∧ change r = some r' ∧
        (s.transition key change).2 = { s with outbox := s.outbox.map fun x => if x.key = key then r' else x } := by
  unfold transition
  split
  · exact .inl rfl
  · rename_i r hr
    split
    · exact .inl rfl
    · rename_i r' hr'
      exact .inr ⟨r, r', hr, hr', rfl⟩

theorem transition_eq_with (s : Store) (key : String) (change : OutboxRow → Option OutboxRow) :
    (s.transition key change).2 = { s with outbox := (s.transition key change).2.outbox } := by
  rcases transition_cases s key change with h | ⟨r, r', -, -, h⟩ <;> rw [h]

/-- Replacing the row of a key by one with the same key keeps every row's key. -/
theorem key_replace {key : String} {r r' : OutboxRow} (hr : r.key = key) (hk : r'.key = r.key) (x : OutboxRow) :
    (if x.key = key then r' else x).key = x.key := by
  split
  · rename_i h; rw [hk, hr, h]
  · rfl

theorem keys_transition {s : Store} {key : String} {change : OutboxRow → Option OutboxRow} (hc : KeepsKey change) :
    (s.transition key change).2.keys = s.keys := by
  rcases transition_cases s key change with h | ⟨r, r', hr, hr', h⟩
  · rw [h]
  · rw [h, keys, keys, List.map_map]
    exact List.map_congr_left fun x _ => key_replace (mem_of_row? hr).2 (hc r r' hr') x

theorem transition_of_change {s : Store} {key : String} {change : OutboxRow → Option OutboxRow}
    {r r' : OutboxRow} (hr : s.row? key = some r) (hr' : change r = some r') :
    (s.transition key change).2 = { s with outbox := s.outbox.map fun x => if x.key = key then r' else x } := by
  simp only [transition, hr, hr']

/-- Replacing the rows of a key by a row with that key moves no other row to the front of its
key. -/
theorem row?_replace {s : Store} {key k : String} {r r' : OutboxRow} (hr : s.row? key = some r)
    (hk : r'.key = r.key) :
    ({ s with outbox := s.outbox.map fun x => if x.key = key then r' else x } : Store).row? k =
      (s.row? k).map fun x => if x.key = key then r' else x := by
  have hkey := key_replace (mem_of_row? hr).2 hk
  simp only [row?, List.find?_map]
  have hp : ((fun x : OutboxRow => decide (x.key = k)) ∘ fun x => if x.key = key then r' else x) =
      fun x => decide (x.key = k) := by
    funext x; simp only [Function.comp, hkey]
  rw [hp]

theorem row?_transition_of_ne {s : Store} {key k : String} {change : OutboxRow → Option OutboxRow}
    (hc : KeepsKey change) (hne : k ≠ key) : (s.transition key change).2.row? k = s.row? k := by
  rcases transition_cases s key change with h | ⟨r, r', hr, hr', h⟩
  · rw [h]
  · rw [h, row?_replace hr (hc r r' hr')]
    cases hf : s.row? k with
    | none => rfl
    | some x => simp [(mem_of_row? hf).2, hne]

theorem row?_transition_self {s : Store} {key : String} {change : OutboxRow → Option OutboxRow}
    {r r' : OutboxRow} (hc : KeepsKey change) (hr : s.row? key = some r) (hr' : change r = some r') :
    (s.transition key change).2.row? key = some r' := by
  rw [transition_of_change hr hr', row?_replace hr (hc r r' hr'), hr]
  simp [(mem_of_row? hr).2]

/-- A row after a transition was there before, or is the change of the row of its key. -/
theorem mem_transition {s : Store} {key : String} {change : OutboxRow → Option OutboxRow} {x : OutboxRow}
    (h : x ∈ (s.transition key change).2.outbox) : x ∈ s.outbox ∨ ∃ r, s.row? key = some r ∧ change r = some x := by
  rcases transition_cases s key change with h' | ⟨r, r', hr, hr', h'⟩
  · rw [h'] at h; exact .inl h
  · rw [h'] at h
    obtain ⟨y, hy, rfl⟩ := List.mem_map.1 h
    split
    · exact .inr ⟨r, hr, hr'⟩
    · exact .inl hy

/-- A transition whose change keeps keys, and makes a row wait only if it was waiting, settles
the store. -/
theorem settles_transition {s : Store} {key : String} {change : OutboxRow → Option OutboxRow}
    (hc : KeepsKey change) (hw : ∀ r r', change r = some r' → r'.Waiting → r.Waiting) :
    Settles s (s.transition key change).2 where
  keys := keys_transition hc
  waiting := fun x hx hxw => by
    rcases mem_transition hx with hx | ⟨r, hr, hrx⟩
    · exact ⟨x, hx, hxw, rfl⟩
    · exact ⟨r, (mem_of_row? hr).1, hw r x hrx hxw, (hc r x hrx).symm⟩

/-! ### The outbox operations -/

theorem keepsKey_release : KeepsKey fun r =>
    if r.status = .claimed then some { r with status := .pending, claimedBy := none, claimedAt := none } else none :=
  fun r r' h => by dsimp only at h; split at h <;> cases h; rfl

theorem keepsKey_markSent (now : Instant) : KeepsKey fun r =>
    if r.status = .claimed then some { r with status := .sent, sentAt := r.sentAt <|> some now } else none :=
  fun r r' h => by dsimp only at h; split at h <;> cases h; rfl

theorem keepsKey_markAcked : KeepsKey fun r => some { r with status := .acked } :=
  fun r r' h => by cases h; rfl

theorem keepsKey_markFailed : KeepsKey fun r => if r.status = .claimed then some { r with status := .failed } else none :=
  fun r r' h => by dsimp only at h; split at h <;> cases h; rfl

theorem settles_release (s : Store) (key : String) : Settles s (s.release key).2 :=
  settles_transition keepsKey_release fun r r' h _ => by
    split at h
    · exact .inr ‹_›
    · cases h

theorem settles_markSent (s : Store) (now : Instant) (key : String) : Settles s (s.markSent now key).2 :=
  settles_transition (keepsKey_markSent now) fun r r' h hw => by
    split at h
    · cases h; simp [OutboxRow.Waiting] at hw
    · cases h

theorem settles_markAcked (s : Store) (key : String) : Settles s (s.markAcked key).2 :=
  settles_transition keepsKey_markAcked fun r r' h hw => by
    cases h; simp [OutboxRow.Waiting] at hw

theorem settles_markFailed (s : Store) (key : String) : Settles s (s.markFailed key).2 :=
  settles_transition keepsKey_markFailed fun r r' h hw => by
    split at h
    · cases h; simp [OutboxRow.Waiting] at hw
    · cases h

theorem row?_release_of_ne (s : Store) {key k : String} (h : k ≠ key) : (s.release key).2.row? k = s.row? k :=
  row?_transition_of_ne keepsKey_release h

theorem row?_markSent_of_ne (s : Store) (now : Instant) {key k : String} (h : k ≠ key) :
    (s.markSent now key).2.row? k = s.row? k :=
  row?_transition_of_ne (keepsKey_markSent now) h

theorem row?_markAcked_of_ne (s : Store) {key k : String} (h : k ≠ key) : (s.markAcked key).2.row? k = s.row? k :=
  row?_transition_of_ne keepsKey_markAcked h

theorem row?_markFailed_of_ne (s : Store) {key k : String} (h : k ≠ key) : (s.markFailed key).2.row? k = s.row? k :=
  row?_transition_of_ne keepsKey_markFailed h

/-- Marking a claimed or sent row sent leaves it sent. -/
theorem row?_markSent_self {s : Store} (now : Instant) {key : String} {r : OutboxRow} (hr : s.row? key = some r)
    (hs : r.status = .claimed ∨ r.status = .sent) :
    ∃ r', (s.markSent now key).2.row? key = some r' ∧ r'.status = .sent := by
  rcases hs with hs | hs
  · exact ⟨_, row?_transition_self (keepsKey_markSent now) hr (if_pos hs), rfl⟩
  · refine ⟨r, ?_, hs⟩
    have hnone : (if r.status = .claimed then
        some { r with status := .sent, sentAt := r.sentAt <|> some now } else none) = none := by
      rw [if_neg]; rw [hs]; decide
    simp only [markSent, transition, hr, hnone]

/-! ### Claims -/

/-- Folding a claiming step over rows: each row is kept, or is pending and claimed, and the
claimed rows are gathered in order. -/
theorem foldl_claims (step : List OutboxRow × List OutboxRow → OutboxRow → List OutboxRow × List OutboxRow)
    (hstep : ∀ acc r, step acc r = (acc.1, acc.2 ++ [r]) ∨
      ∃ r', r.status = .pending ∧ r'.status = .claimed ∧ r'.key = r.key ∧ step acc r = (acc.1 ++ [r'], acc.2 ++ [r'])) :
    ∀ (l C R : List OutboxRow), ∃ C₁ R₁, l.foldl step (C, R) = (C ++ C₁, R ++ R₁) ∧
      R₁.map (·.key) = l.map (·.key) ∧ C₁.Sublist R₁ ∧ (∀ c ∈ C₁, c.status = .claimed) ∧
      (∀ x ∈ R₁, x ∈ l ∨ x.status = .claimed ∧ ∃ y ∈ l, y.status = .pending ∧ y.key = x.key) ∧
      List.Forall₂ (fun y x => x = y ∨ y.status = .pending ∧ x.key = y.key) l R₁ := by
  intro l
  induction l with
  | nil => intro C R; exact ⟨[], [], by simp, rfl, .slnil, by simp, by simp, .nil⟩
  | cons r l ih =>
    intro C R
    rcases hstep (C, R) r with h | ⟨r', hp, hc, hk, h⟩
    · obtain ⟨C₁, R₁, he, hkeys, hsub, hcl, hmem, hpos⟩ := ih C (R ++ [r])
      refine ⟨C₁, r :: R₁, by simp [List.foldl_cons, h, he], by simp [hkeys], hsub.cons r, hcl, ?_,
        .cons (.inl rfl) hpos⟩
      intro x hx
      rcases List.mem_cons.1 hx with rfl | hx
      · exact .inl List.mem_cons_self
      · rcases hmem x hx with hx | ⟨hxc, y, hy, hyp, hyk⟩
        · exact .inl (List.mem_cons_of_mem r hx)
        · exact .inr ⟨hxc, y, List.mem_cons_of_mem r hy, hyp, hyk⟩
    · obtain ⟨C₁, R₁, he, hkeys, hsub, hcl, hmem, hpos⟩ := ih (C ++ [r']) (R ++ [r'])
      refine ⟨r' :: C₁, r' :: R₁, by simp [List.foldl_cons, h, he], by simp [hkeys, hk], hsub.cons_cons r', ?_, ?_,
        .cons (.inr ⟨hp, hk⟩) hpos⟩
      · intro c hc'
        rcases List.mem_cons.1 hc' with rfl | hc'
        · exact hc
        · exact hcl c hc'
      · intro x hx
        rcases List.mem_cons.1 hx with rfl | hx
        · exact .inr ⟨hc, r, List.mem_cons_self, hp, hk.symm⟩
        · rcases hmem x hx with hx | ⟨hxc, y, hy, hyp, hyk⟩
          · exact .inl (List.mem_cons_of_mem r hx)
          · exact .inr ⟨hxc, y, List.mem_cons_of_mem r hy, hyp, hyk⟩

/-- One step of a claim: the rows claimed so far and the rows seen so far, after one more row. -/
def claimStep (now : Instant) (limit : Int) (claimant : String) (acc : List OutboxRow × List OutboxRow)
    (r : OutboxRow) : List OutboxRow × List OutboxRow :=
  if (acc.1.length : Int) < limit ∧ r.status = .pending then
    let r' := { r with status := .claimed, claimedBy := some claimant, claimedAt := some now }
    (acc.1 ++ [r'], acc.2 ++ [r'])
  else (acc.1, acc.2 ++ [r])

theorem claimBatch_eq (s : Store) (now : Instant) (limit : Int) (claimant : String) :
    s.claimBatch now limit claimant =
      ((s.outbox.foldl (claimStep now limit claimant) ([], [])).1,
        { s with outbox := (s.outbox.foldl (claimStep now limit claimant) ([], [])).2 }) := rfl

/-- A claim changes only the outbox: it settles the store, the rows it returns are claimed rows of
the outbox after it, and each row after it is the row before it or, when that was pending, one with
its key. -/
theorem claimBatch_spec (s : Store) (now : Instant) (limit : Int) (claimant : String) :
    (s.claimBatch now limit claimant).2 = { s with outbox := (s.claimBatch now limit claimant).2.outbox } ∧
    Settles s (s.claimBatch now limit claimant).2 ∧
    (s.claimBatch now limit claimant).1.Sublist (s.claimBatch now limit claimant).2.outbox ∧
    (∀ c ∈ (s.claimBatch now limit claimant).1, c.status = .claimed) ∧
    List.Forall₂ (fun y x => x = y ∨ y.status = .pending ∧ x.key = y.key) s.outbox
      (s.claimBatch now limit claimant).2.outbox := by
  obtain ⟨C₁, R₁, he, hkeys, hsub, hcl, hmem, hpos⟩ := foldl_claims (claimStep now limit claimant) (fun acc r => by
    unfold claimStep
    split
    · rename_i h
      exact .inr ⟨{ r with status := .claimed, claimedBy := some claimant, claimedAt := some now }, h.2, rfl, rfl, rfl⟩
    · exact .inl rfl) s.outbox [] []
  rw [claimBatch_eq, he]
  refine ⟨rfl, ⟨hkeys, fun x hx hxw => ?_⟩, hsub, hcl, hpos⟩
  rcases hmem x hx with hx | ⟨hxc, y, hy, hyp, hyk⟩
  · exact ⟨x, hx, hxw, rfl⟩
  · exact ⟨y, hy, .inl hyp, hyk⟩

/-- Rows matched one for one, each kept or, when pending, replaced by one with its key: a row that
was not pending is still the one found for its key. -/
theorem find?_of_forall₂ {l R : List OutboxRow}
    (h : List.Forall₂ (fun y x => x = y ∨ y.status = .pending ∧ x.key = y.key) l R) {k : String}
    {r : OutboxRow} (hr : l.find? (·.key = k) = some r) (hp : r.status ≠ .pending) :
    R.find? (·.key = k) = some r := by
  induction h with
  | nil => cases hr
  | @cons y x l R hyx _ ih =>
    by_cases hk : y.key = k
    · rw [List.find?_cons_of_pos (by simpa using hk)] at hr
      cases hr
      rcases hyx with rfl | ⟨hyp, -⟩
      · exact List.find?_cons_of_pos (by simpa using hk)
      · exact absurd hyp hp
    · have hxk : x.key ≠ k := by
        rcases hyx with rfl | ⟨-, hxk⟩
        · exact hk
        · rwa [hxk]
      rw [List.find?_cons_of_neg (by simpa using hk)] at hr
      rw [List.find?_cons_of_neg (by simpa using hxk)]
      exact ih hr

theorem row?_claimBatch {s : Store} {now : Instant} {limit : Int} {claimant k : String} {r : OutboxRow}
    (hr : s.row? k = some r) (hp : r.status ≠ .pending) : (s.claimBatch now limit claimant).2.row? k = some r :=
  find?_of_forall₂ (s.claimBatch_spec now limit claimant).2.2.2.2 hr hp

/-! ### Queuing -/

/-- An enqueue adds a row under a key no row has, or changes nothing. -/
theorem enqueue_ok {s s' : Store} {now : Instant} {runId key json : String} {b : Bool}
    (h : s.enqueue now runId key json = .ok (b, s')) :
    s' = s ∨ key ∉ s.keys ∧ ∃ r : OutboxRow, r.key = key ∧ s'.outbox = s.outbox ++ [r] := by
  unfold enqueue at h
  split at h
  · cases h
  · split at h
    · cases h; exact .inl rfl
    · rename_i hne
      cases h
      refine .inr ⟨fun hk => hne ?_, _, rfl, rfl⟩
      obtain ⟨r, hr, rfl⟩ := List.mem_map.1 hk
      exact row?_of_mem' hr

/-! ### Operations away from the outbox -/

@[simp] theorem outbox_insertInbox (s : Store) (now : Instant) (runId messageId json : String) :
    (s.insertInbox now runId messageId json).2.outbox = s.outbox := by
  unfold insertInbox; split <;> rfl

@[simp] theorem outbox_discard (s : Store) (messageId : String) : (s.discard messageId).outbox = s.outbox := by
  unfold discard; split
  · split <;> rfl
  · rfl

@[simp] theorem outbox_saveArm (s : Store) (a : ArmState) : (s.saveArm a).outbox = s.outbox := rfl

@[simp] theorem outbox_upsertMapping (s : Store) (internalId brokerId : String) :
    (s.upsertMapping internalId brokerId).outbox = s.outbox := by
  unfold upsertMapping; split <;> rfl

@[simp] theorem outbox_removeMapping (s : Store) (internalId : String) : (s.removeMapping internalId).outbox = s.outbox :=
  rfl

theorem outbox_markApplied {s s' : Store} {now : Instant} {messageId : String} (h : s.markApplied now messageId = .ok s') :
    s'.outbox = s.outbox := by
  unfold markApplied at h
  split at h
  · cases h
  · cases h; rfl

/-- A message stamped applied, or the store as it was when the message is unknown: one step of
`markAppliedAll`. -/
def markAppliedOrSame (s : Store) (now : Instant) (id : String) : Store :=
  match s.markApplied now id with
  | .ok s' => s'
  | .error _ => s

theorem markAppliedAll_cons (s : Store) (now : Instant) (id : String) (rest : List String) :
    s.markAppliedAll now (id :: rest) = (s.markAppliedOrSame now id).markAppliedAll now rest := rfl

@[simp] theorem outbox_markAppliedAll (s : Store) (now : Instant) (messageIds : List String) :
    (s.markAppliedAll now messageIds).outbox = s.outbox := by
  induction messageIds generalizing s with
  | nil => rfl
  | cons id rest ih =>
    rw [markAppliedAll_cons, ih]
    unfold markAppliedOrSame
    split
    · rename_i s' h
      exact outbox_markApplied h
    · rfl

end Store

end TradeDesk
