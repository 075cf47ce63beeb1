import TradeDesk.Proofs.Store.Lifecycle
/-!
# Claiming the oldest pending rows

A claim walks the outbox in the order of its rows and takes pending rows while it holds fewer
than the limit allows, so none for a limit of zero or less. The ids increase along the outbox of
every store its operations reach, so the rows it takes are the pending rows of least id, in
increasing order of id; it returns copies of them claimed for the claimant at the clock's time,
and changes no other row (`Store.claimBatch_of_nodup`).

A claimed row is not pending, and the only step that makes a row pending again is a release that
moves it, which answers true: every other operation keeps a row that is not pending away from
pending (`Store.Sound.not_pending_perform`). So a row that two claims return was released in
between (`Store.claimBatch_claims_oldest_once`).
-/

namespace TradeDesk

namespace OutboxRow

/-- A row claimed by a claimant at a time. -/
def claimFor (claimant : String) (now : Instant) (r : OutboxRow) : OutboxRow :=
  { r with status := .claimed, claimedBy := some claimant, claimedAt := some now }

@[simp] theorem key_claimFor (claimant : String) (now : Instant) (r : OutboxRow) :
    (r.claimFor claimant now).key = r.key := rfl

@[simp] theorem id_claimFor (claimant : String) (now : Instant) (r : OutboxRow) :
    (r.claimFor claimant now).id = r.id := rfl

@[simp] theorem status_claimFor (claimant : String) (now : Instant) (r : OutboxRow) :
    (r.claimFor claimant now).status = .claimed := rfl

end OutboxRow

namespace Store

/-- The pending rows of the outbox, in the order of the rows. -/
def pendingRows (s : Store) : List OutboxRow := s.outbox.filter (·.status = .pending)

theorem mem_pendingRows {s : Store} {r : OutboxRow} : r ∈ s.pendingRows ↔ r ∈ s.outbox ∧ r.status = .pending := by
  simp [pendingRows]

/-! ### One claim -/

section Claim

variable (now : Instant) (limit : Int) (claimant : String)

/-- The rows a claim takes from rows `l` once it holds `held`: the first pending ones, as many as
the limit leaves room for. -/
def taken (held : Nat) (l : List OutboxRow) : List OutboxRow :=
  (l.filter (·.status = .pending)).take (limit.toNat - held)

theorem taken_cons_of_pending {held : Nat} {r : OutboxRow} (l : List OutboxRow) (hroom : held < limit.toNat)
    (hp : r.status = .pending) : taken limit held (r :: l) = r :: taken limit (held + 1) l := by
  have hm : limit.toNat - held = (limit.toNat - (held + 1)) + 1 := by omega
  simp only [taken, List.filter_cons, hp, decide_true, if_true, hm, List.take_succ_cons]

theorem taken_cons_of_not_pending (held : Nat) {r : OutboxRow} (l : List OutboxRow) (hp : r.status ≠ .pending) :
    taken limit held (r :: l) = taken limit held l := by
  simp only [taken, List.filter_cons, hp, decide_false, Bool.false_eq_true, ↓reduceIte]

theorem taken_of_full {held : Nat} (hfull : ¬held < limit.toNat) (l : List OutboxRow) : taken limit held l = [] := by
  simp only [taken, Nat.sub_eq_zero_of_le (Nat.le_of_not_lt hfull), List.take_zero]

/-- Walking distinct rows, a claim gathers the rows it takes, claimed, and keeps every other row
as it was. -/
theorem foldl_claimStep : ∀ (l C R : List OutboxRow), l.Nodup →
    l.foldl (claimStep now limit claimant) (C, R) =
      (C ++ (taken limit C.length l).map (OutboxRow.claimFor claimant now),
        R ++ l.map fun r => if r ∈ taken limit C.length l then r.claimFor claimant now else r) := by
  intro l
  induction l with
  | nil => intro C R _; simp [taken]
  | cons r l ih =>
    intro C R hnd
    obtain ⟨hr, hl⟩ := List.nodup_cons.1 hnd
    -- a row taken after `r` is not `r`, so its membership does not depend on `r`
    have hskip : ∀ T : List OutboxRow, (l.map fun x => if x ∈ r :: T then x.claimFor claimant now else x) =
        l.map fun x => if x ∈ T then x.claimFor claimant now else x := by
      intro T
      refine List.map_congr_left fun x hx => ?_
      have hne : x ≠ r := fun he => hr (he ▸ hx)
      simp [hne]
    rw [List.foldl_cons]
    by_cases hroom : C.length < limit.toNat
    · by_cases hp : r.status = .pending
      · have hstep : claimStep now limit claimant (C, R) r =
            (C ++ [r.claimFor claimant now], R ++ [r.claimFor claimant now]) := by
          simp only [claimStep, if_pos (And.intro (Int.lt_toNat.1 hroom) hp)]
          rfl
        rw [hstep, ih _ _ hl, taken_cons_of_pending limit l hroom hp]
        simp only [List.map_cons, hskip, List.length_append, List.length_singleton]
        simp
      · have hstep : claimStep now limit claimant (C, R) r = (C, R ++ [r]) := by
          simp only [claimStep, hp, and_false, if_false]
        have hnot : r ∉ taken limit C.length l := fun hm =>
          hp (by simpa using (List.mem_filter.1 (List.mem_of_mem_take hm)).2)
        rw [hstep, ih _ _ hl, taken_cons_of_not_pending limit _ l hp]
        simp [hnot]
    · have hstep : claimStep now limit claimant (C, R) r = (C, R ++ [r]) := by
        simp only [claimStep, if_neg (fun h : (C.length : Int) < limit ∧ r.status = .pending =>
          hroom (Int.lt_toNat.2 h.1))]
      rw [hstep, ih _ _ hl, taken_of_full limit hroom, taken_of_full limit hroom]
      simp

/-- A claim over distinct rows returns the first pending rows, as many as the limit allows,
claimed for the claimant at the time, and claims them and nothing else in the outbox. -/
theorem claimBatch_of_nodup {s : Store} (h : s.outbox.Nodup) :
    s.claimBatch now limit claimant =
      ((s.pendingRows.take limit.toNat).map (OutboxRow.claimFor claimant now),
        { s with outbox := s.outbox.map fun r =>
            if r ∈ s.pendingRows.take limit.toNat then r.claimFor claimant now else r }) := by
  rw [claimBatch_eq, foldl_claimStep now limit claimant s.outbox [] [] h]
  rfl

end Claim

/-- Of pending rows in increasing order of id, those a claim takes have smaller ids than the
pending rows it leaves. -/
theorem id_lt_of_not_mem_take {P : List OutboxRow} (hP : (P.map (·.id)).Pairwise (· < ·)) (n : Nat)
    {r c : OutboxRow} (hr : r ∈ P) (hnot : r ∉ P.take n) (hc : c ∈ P.take n) : c.id < r.id := by
  rw [List.pairwise_map, ← List.take_append_drop n P, List.pairwise_append] at hP
  have hdrop : r ∈ P.drop n := by
    rw [← List.take_append_drop n P] at hr
    exact (List.mem_append.1 hr).resolve_left hnot
  exact hP.2.2 c hc r hdrop

/-- On a sound store a claim takes the pending rows of least id, as many as the limit allows, in
increasing order of id, and claims them and nothing else. -/
theorem Sound.claimBatch_oldest {s : Store} (hs : s.Sound) (now : Instant) (limit : Int) (claimant : String) :
    s.claimBatch now limit claimant =
        ((s.pendingRows.take limit.toNat).map (OutboxRow.claimFor claimant now),
          { s with outbox := s.outbox.map fun r =>
              if r ∈ s.pendingRows.take limit.toNat then r.claimFor claimant now else r }) ∧
      (s.pendingRows.take limit.toNat).length = min limit.toNat s.pendingRows.length ∧
      ((s.pendingRows.take limit.toNat).map (·.id)).Pairwise (· < ·) ∧
      ∀ r ∈ s.pendingRows, r ∉ s.pendingRows.take limit.toNat → ∀ c ∈ s.pendingRows.take limit.toNat, c.id < r.id := by
  -- the pending rows keep the increasing order of the ids
  have hsorted : (s.pendingRows.map (·.id)).Pairwise (· < ·) :=
    hs.outbox_sorted.sublist (List.filter_sublist.map _)
  exact ⟨claimBatch_of_nodup now limit claimant (List.Nodup.of_map _ hs.keys_nodup), List.length_take,
    hsorted.sublist ((List.take_sublist _ _).map _), fun r hr hnot c hc => id_lt_of_not_mem_take hsorted _ hr hnot hc⟩

/-! ### Back to pending only through a release -/

theorem release_of_claimed {s : Store} {k : String} {r : OutboxRow} (hr : s.row? k = some r)
    (hc : r.status = .claimed) : (s.release k).1 = true := by
  simp [release, transition, hr, hc]

namespace Sound

variable {s : Store}

/-- **One step.** An operation keeps the row of a key away from pending, unless it is a release
of that key that answers true. -/
theorem not_pending_perform (hs : s.Sound) (op : Op) {k : String} {r : OutboxRow} (hr : s.row? k = some r)
    (hp : r.status ≠ .pending) (hrel : op = .release k → (s.release k).1 = false) :
    ∃ r', (op.perform s).row? k = some r' ∧ r'.status ≠ .pending := by
  obtain ⟨hmem, hk⟩ := mem_of_row? hr
  obtain ⟨r', hr', hmove⟩ := hs.row_perform op hmem
  rw [hk] at hr'
  rcases hmove with rfl | hm
  · exact ⟨_, hr', hp⟩
  · -- only a claim (of a pending row) or a release moves a row to pending
    cases hm with
    | claim hpend => exact absurd hpend hp
    | release hkey hc =>
      have hf := hrel (by rw [← hkey, hk])
      rw [release_of_claimed hr hc] at hf
      cases hf
    | markSent => exact ⟨_, hr', by simp⟩
    | markAcked => exact ⟨_, hr', by simp⟩
    | markFailed => exact ⟨_, hr', by simp⟩

/-- **A run.** Along operations with no release of a key that answers true, the row of that key
stays away from pending. -/
theorem not_pending_run (hs : s.Sound) {k : String} {r : OutboxRow} (hr : s.row? k = some r)
    (hp : r.status ≠ .pending) (ops : List Op)
    (hno : ∀ before after, ops = before ++ .release k :: after → ((s.run before).release k).1 = false) :
    ∃ r', (s.run ops).row? k = some r' ∧ r'.status ≠ .pending := by
  induction ops generalizing s r with
  | nil => exact ⟨r, hr, hp⟩
  | cons op ops ih =>
    obtain ⟨r', hr', hp'⟩ := hs.not_pending_perform op hr hp fun he => hno [] ops (by rw [he]; rfl)
    exact ih (hs.perform op) hr' hp' fun before after he => hno (op :: before) after (by rw [he]; rfl)

end Sound

/-- **Claims take the oldest pending rows, once.** In every store its operations reach, a claim
with a limit returns copies of the `min (max limit 0) (number of pending rows)` pending rows of
least id, in increasing order of id, each claimed for the claimant at the clock's time, and the
outbox after it has exactly those rows claimed and every other row as it was. A row that this
claim returns and a later claim returns again, after any further operations, was released in
between by a release that answered true. -/
theorem claimBatch_claims_oldest_once (pre : List Op) (now : Instant) (limit : Int) (claimant : String) :
    let s := ({} : Store).run pre
    let chosen := s.pendingRows.take limit.toNat
    ((s.claimBatch now limit claimant).1 = chosen.map (OutboxRow.claimFor claimant now) ∧
      chosen.length = min limit.toNat s.pendingRows.length ∧
      (chosen.map (·.id)).Pairwise (· < ·) ∧
      (∀ r ∈ s.pendingRows, r ∉ chosen → ∀ c ∈ chosen, c.id < r.id) ∧
      (s.claimBatch now limit claimant).2 =
        { s with outbox := s.outbox.map fun r => if r ∈ chosen then r.claimFor claimant now else r }) ∧
    ∀ (mid : List Op) (now' : Instant) (limit' : Int) (claimant' : String) (r r' : OutboxRow),
      r ∈ (s.claimBatch now limit claimant).1 →
      r' ∈ (((s.claimBatch now limit claimant).2.run mid).claimBatch now' limit' claimant').1 →
      r'.key = r.key →
      ∃ before after, mid = before ++ .release r.key :: after ∧
        (((s.claimBatch now limit claimant).2.run before).release r.key).1 = true := by
  intro s chosen
  have hs : s.Sound := sound_empty.run pre
  obtain ⟨hclaim, hlen, hids, holdest⟩ := hs.claimBatch_oldest now limit claimant
  refine ⟨⟨congrArg Prod.fst hclaim, hlen, hids, holdest, congrArg Prod.snd hclaim⟩, ?_⟩
  intro mid now' limit' claimant' r r' h₁ h₂ hk
  set t := (s.claimBatch now limit claimant).2
  have ht : t.Sound := hs.perform (.claim now limit claimant)
  obtain ⟨-, -, hsub, hcl, -⟩ := s.claimBatch_spec now limit claimant
  have hr : t.row? r.key = some r := row?_of_mem ht.keys_nodup (hsub.subset h₁)
  have hp : r.status ≠ .pending := by rw [hcl r h₁]; decide
  have hu : (t.run mid).Sound := ht.run mid
  rw [claimBatch_of_nodup now' limit' claimant' (List.Nodup.of_map _ hu.keys_nodup)] at h₂
  obtain ⟨x, hx, rfl⟩ := List.mem_map.1 h₂
  obtain ⟨hxmem, hxp⟩ := mem_pendingRows.1 (List.mem_of_mem_take hx)
  have hxrow : (t.run mid).row? r.key = some x := hk ▸ row?_of_mem hu.keys_nodup hxmem
  by_contra hcon
  have hno : ∀ before after, mid = before ++ .release r.key :: after → ((t.run before).release r.key).1 = false := by
    intro before after he
    cases hb : ((t.run before).release r.key).1
    · rfl
    · exact absurd ⟨before, after, he, hb⟩ hcon
  obtain ⟨y, hy, hyp⟩ := ht.not_pending_run hr hp mid hno
  rw [hxrow] at hy
  cases hy
  exact hyp hxp

/-- A row queued, claimed by one dispatcher, released, and claimed by another. -/
theorem claimBatch_claims_a_released_row_again :
    let s := ({} : Store).run [.enqueue 0 "run" "k" "{}"]
    let row : OutboxRow := { id := 1, runId := "run", key := "k", orderJson := "{}", status := .pending, createdAt := 0 }
    row.claimFor "a" 0 ∈ (s.claimBatch 0 1 "a").1 ∧
      row.claimFor "b" 5 ∈ (((s.claimBatch 0 1 "a").2.run [.release "k"]).claimBatch 5 1 "b").1 ∧
      ∃ before after, [Op.release "k"] = before ++ .release "k" :: after ∧
        (((s.claimBatch 0 1 "a").2.run before).release "k").1 = true := by
  intro s row
  have h₁ : row.claimFor "a" 0 ∈ (s.claimBatch 0 1 "a").1 := by decide +kernel
  have h₂ : row.claimFor "b" 5 ∈ (((s.claimBatch 0 1 "a").2.run [.release "k"]).claimBatch 5 1 "b").1 := by
    decide +kernel
  exact ⟨h₁, h₂, (claimBatch_claims_oldest_once _ 0 1 "a").2 [.release "k"] 5 1 "b" _ _ h₁ h₂ rfl⟩

end Store

end TradeDesk
