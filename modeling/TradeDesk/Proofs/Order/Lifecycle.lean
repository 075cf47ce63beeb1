import TradeDesk.Saturating
import TradeDesk.Proofs.Order.Replay
/-!
# The lifecycle of an order

What holds of an order that starts new, with a total that is not negative, whatever events it is
given. The transition rule is read once, as the rules of `Order.Moves`: a legal event changes
nothing, adds a fill, makes a live order wait for the answer to a request, answers a pending
order, or rejects it (`Order.step_moves`). Every fact below is proved from those rules.

* The filled quantity never exceeds the total (`Order.Capped`), whatever the fills, since a fill
  is capped at the total.
* As long as no fill makes the filled quantity plus its own leave the range of words
  (`Order.FillsFit`), the order stays `Order.Sound`: nothing negative is filled, the filled
  quantity never decreases, a pending order remembers the live state it left, a live order
  remembers nothing, and an order that is, or will return to, partially filled has filled
  something. A pending order that takes a fill and stays pending remembers partially filled
  until it is answered. Without that condition the capped sum wraps: a large fill of an order
  that has filled something makes its filled quantity negative (`Order.fill_wraps_below_zero`).
* A terminal order keeps its state and filled quantity for good. It takes a fill when it is
  filled, and any event under an id it has taken before, both changing nothing, and refuses
  everything else (`Order.apply_of_terminal_iff`).
-/

namespace TradeDesk

namespace OrderState

theorem live_eq_false_of_pending {s : OrderState} (h : s.pending) : s.live = false := by
  cases s <;> simp_all [pending, live]

theorem pending_eq_false_of_live {s : OrderState} (h : s.live) : s.pending = false := by
  cases s <;> simp_all [pending, live]

theorem eq_of_live {s : OrderState} (h : s.live) : s = .working ∨ s = .partiallyFilled := by
  cases s <;> simp_all [live]

theorem not_live_of_terminal {s : OrderState} (h : s.terminal) : s.live = false ∧ s.pending = false := by
  cases s <;> simp_all [terminal, live, pending]

end OrderState

namespace Order

/-! ### The transition rule as rules -/

/-- What a legal event can do to an order, one rule for each kind of move. The rules say what a
move changes; which kinds of event make which move is left to the transition rule. -/
inductive Moves : Order → Event → Order → Prop
  /-- A live order is acknowledged, which changes nothing. -/
  | ack {o : Order} {e : Event} : e.kind = .ack → o.state.live → Moves o e o
  /-- A fill of a filled order comes late and changes nothing. -/
  | late {o : Order} {e : Event} : e.kind.isFill → o.state = .filled → Moves o e o
  /-- A fill of positive quantity adds to a live or pending order, capped at its total. -/
  | fill {o : Order} {e : Event} : e.kind.isFill → o.state ≠ .filled → 0 < e.delta →
      (o.state.live ∨ o.state.pending) → Moves o e (o.addFill (e.kind = .fill) e.delta)
  /-- A live order asked to cancel or replace remembers its state and waits for the answer. -/
  | request {o : Order} {e : Event} {p : OrderState} : o.state.live → p.pending →
      Moves o e { o with prior := some o.state, state := p }
  /-- A pending order is answered: it is cancelled, working again or back in the state it
  remembers, and it forgets that state. -/
  | answer {o : Order} {e : Event} {s : OrderState} : o.state.pending →
      (s = .cancelled ∨ s = .working ∨ s = o.restored) → Moves o e { o with state := s, prior := none }
  /-- A live or pending order is rejected. -/
  | reject {o : Order} {e : Event} : (o.state.live ∨ o.state.pending) → Moves o e { o with state := .rejected }

theorem live_or_pending {s : OrderState} (h : ¬(!(s.live || s.pending)) = true) : s.live ∨ s.pending := by
  rw [← Bool.or_eq_true]
  simpa only [Bool.not_eq_true', Bool.not_eq_false] using h

/-- The line of the transition rule shared by both kinds of fill. -/
theorem moves_of_fill_line {o o' : Order} {e : Event} (hk : e.kind.isFill)
    (h : (if o.state = .filled then some o
      else if e.delta ≤ 0 ∨ !(o.state.live || o.state.pending) then none
      else some (o.addFill (e.kind = .fill) e.delta)) = some o') : Moves o e o' := by
  split at h
  · cases h
    exact .late hk ‹_›
  · split at h
    · cases h
    · rename_i hf hd
      cases h
      obtain ⟨hd, hlp⟩ := not_or.1 hd
      exact .fill hk hf (Int64.not_le.1 hd) (live_or_pending hlp)

/-- Every move the transition rule makes is one of the rules. -/
theorem step_moves {o o' : Order} {e : Event} (h : o.step e = some o') : Moves o e o' := by
  unfold step at h
  split at h
  next hk =>
    split at h <;> cases h
    exact .ack hk ‹_›
  next hk => exact moves_of_fill_line (by simp [hk, EventKind.isFill]) h
  next hk => exact moves_of_fill_line (by simp [hk, EventKind.isFill]) h
  next =>
    split at h <;> cases h
    exact .request ‹_› rfl
  next =>
    split at h <;> cases h
    exact .request ‹_› rfl
  next =>
    split at h <;> cases h
    exact .answer (by simp [*, OrderState.pending]) (.inl rfl)
  next =>
    split at h <;> cases h
    exact .answer (by simp [*, OrderState.pending]) (.inr (.inr rfl))
  next =>
    split at h <;> cases h
    exact .answer (by simp [*, OrderState.pending]) (.inr (.inl rfl))
  next =>
    split at h <;> cases h
    exact .answer (by simp [*, OrderState.pending]) (.inr (.inr rfl))
  next =>
    split at h <;> cases h
    exact .reject (by rwa [← Bool.or_eq_true])
  next => cases h

/-- A fill of positive quantity is legal for a pending order. -/
theorem step_fill_of_pending {o : Order} {e : Event} (hp : o.state.pending) (hk : e.kind.isFill)
    (hd : 0 < e.delta) : o.step e = some (o.addFill (e.kind = .fill) e.delta) := by
  have hnf : o.state ≠ .filled := fun h => by simp [h, OrderState.pending] at hp
  have hguard : ¬(e.delta ≤ 0 ∨ (!(o.state.live || o.state.pending)) = true) := by
    simp [hp, Int64.not_le.2 hd]
  unfold step
  cases hkind : e.kind <;> simp only [hkind, EventKind.isFill, Bool.false_eq_true] at hk <;>
    simp only [if_neg hnf, if_neg hguard]

/-- What a fill does: it sets the capped sum; then the order is filled if the fill closes it or
the total is reached, and otherwise a pending order stays pending and remembers partially filled,
while a live one becomes partially filled. -/
theorem addFill_cases (o : Order) (closes : Bool) (delta : Int64) :
    (o.addFill closes delta).filledQty = min (o.filledQty + delta) o.totalQty ∧
      (o.addFill closes delta).totalQty = o.totalQty ∧
      ((closes ∨ min (o.filledQty + delta) o.totalQty = o.totalQty) ∧
          (o.addFill closes delta).state = .filled ∧ (o.addFill closes delta).prior = o.prior ∨
        ¬(closes ∨ min (o.filledQty + delta) o.totalQty = o.totalQty) ∧ o.state.pending ∧
          (o.addFill closes delta).state = o.state ∧ (o.addFill closes delta).prior = some .partiallyFilled ∨
        ¬(closes ∨ min (o.filledQty + delta) o.totalQty = o.totalQty) ∧ ¬o.state.pending ∧
          (o.addFill closes delta).state = .partiallyFilled ∧ (o.addFill closes delta).prior = o.prior) := by
  dsimp only [addFill]
  split
  · exact ⟨rfl, rfl, .inl ⟨‹_›, rfl, rfl⟩⟩
  · split
    · exact ⟨rfl, rfl, .inr (.inl ⟨‹_›, ‹_›, rfl, rfl⟩)⟩
    · exact ⟨rfl, rfl, .inr (.inr ⟨‹_›, ‹_›, rfl, rfl⟩)⟩

/-! ### The filled quantity stays within the total -/

/-- Nothing beyond the total is filled. -/
def Capped (o : Order) : Prop := o.filledQty ≤ o.totalQty

theorem capped_new (id symbol : String) {total : Int64} (h : 0 ≤ total) : (Order.new id symbol total).Capped := h

theorem Capped.move {o o' : Order} {e : Event} (h : o.Capped) (hm : Moves o e o') : o'.Capped := by
  cases hm with
  | ack _ _ | late _ _ => exact h
  | fill =>
    obtain ⟨hq, ht, -⟩ := addFill_cases o (e.kind = .fill) e.delta
    show _ ≤ _
    rw [hq, ht, Int64.le_iff_toInt_le, toInt_min]
    omega
  | request _ _ | answer _ _ | reject _ => exact h

/-- An event taken under an id it brings changes the order as its move does, and remembers the id. -/
theorem apply_eq_ok_moves {o o' : Order} {e : Event} {eventId : String} (h : o.apply e eventId = .ok o') :
    (eventId ≠ "" ∧ eventId ∈ o.seen ∧ o' = o) ∨
      ∃ o₁, Moves o e o₁ ∧ o'.state = o₁.state ∧ o'.prior = o₁.prior ∧ o'.filledQty = o₁.filledQty ∧
        o'.totalQty = o₁.totalQty := by
  rcases apply_eq_ok h with hseen | ⟨o₁, hs, rfl⟩
  · exact .inl hseen
  · refine .inr ⟨o₁, step_moves hs, ?_⟩
    split <;> exact ⟨rfl, rfl, rfl, rfl⟩

/-- One event of a run: the order it takes, or the order as it was when the event is refused. -/
theorem applyEach_single (o : Order) (e : Event) (eventId : String) :
    o.applyEach [(e, eventId)] = o ∨ o.apply e eventId = .ok (o.applyEach [(e, eventId)]) := by
  simp only [applyEach]
  split
  · exact .inr ‹_›
  · exact .inl rfl

theorem Capped.apply {o o' : Order} {e : Event} {eventId : String} (h : o.Capped)
    (ha : o.apply e eventId = .ok o') : o'.Capped := by
  rcases apply_eq_ok_moves ha with ⟨-, -, rfl⟩ | ⟨o₁, hm, -, -, hq, ht⟩
  · exact h
  · have h₁ : o₁.Capped := h.move hm
    unfold Capped at h₁ ⊢
    rwa [hq, ht]

/-- What every event taken keeps, every run keeps. -/
theorem applyEach_induction {P : Order → Prop}
    (step : ∀ (o o' : Order) (e : Event) (eventId : String), P o → o.apply e eventId = .ok o' → P o') :
    ∀ (o : Order) (steps : List (Event × String)), P o → P (o.applyEach steps) := by
  intro o steps
  induction steps generalizing o with
  | nil => exact fun h => h
  | cons s rest ih =>
    obtain ⟨e, eventId⟩ := s
    intro h
    simp only [applyEach]
    split
    · rename_i o' ho'
      exact ih o' (step o o' e eventId h ho')
    · exact ih o h

theorem totalQty_applyEach (o : Order) (steps : List (Event × String)) :
    (o.applyEach steps).totalQty = o.totalQty :=
  applyEach_induction (P := fun o' => o'.totalQty = o.totalQty)
    (fun _ _ _ _ h ha => (apply_keeps ha).2.2.trans h) o steps rfl

theorem Capped.applyEach {o : Order} (h : o.Capped) (steps : List (Event × String)) :
    (o.applyEach steps).Capped :=
  applyEach_induction (fun _ _ _ _ h ha => h.apply ha) o steps h

/-! ### Fills that stay words -/

/-- A fill that leaves the filled quantity a word: its quantity added to what is filled is at
most the largest word. Only then is the capped sum of a fill the true one. -/
def FillFits (o : Order) (e : Event) : Prop :=
  e.kind.isFill → o.filledQty.toInt + e.delta.toInt ≤ Int64.maxValue.toInt

/-- Every fill of a run leaves the filled quantity a word, at the order it reaches. -/
def FillsFit (o : Order) (steps : List (Event × String)) : Prop :=
  ∀ pre e eventId post, steps = pre ++ (e, eventId) :: post → (o.applyEach pre).FillFits e

theorem FillsFit.left {o : Order} {xs ys : List (Event × String)} (h : o.FillsFit (xs ++ ys)) : o.FillsFit xs :=
  fun pre e eventId post hxs => h pre e eventId (post ++ ys) (by simp [hxs])

theorem FillsFit.right {o : Order} {xs ys : List (Event × String)} (h : o.FillsFit (xs ++ ys)) :
    (o.applyEach xs).FillsFit ys := by
  intro pre e eventId post hys
  rw [← applyEach_append]
  exact h (xs ++ pre) e eventId post (by simp [hys])

theorem FillsFit.head {o : Order} {e : Event} {eventId : String} {rest : List (Event × String)}
    (h : o.FillsFit ((e, eventId) :: rest)) : o.FillFits e :=
  h [] e eventId rest rfl

theorem FillsFit.tail {o : Order} {e : Event} {eventId : String} {rest : List (Event × String)}
    (h : o.FillsFit ((e, eventId) :: rest)) : (o.applyEach [(e, eventId)]).FillsFit rest :=
  FillsFit.right (h : o.FillsFit ([(e, eventId)] ++ rest))

/-- Fills no larger than what the total leaves below the largest word always fit, since nothing
beyond the total is ever filled. -/
theorem fillsFit_of_headroom {o : Order} (hc : o.Capped) {steps : List (Event × String)}
    (h : ∀ s ∈ steps, s.1.kind.isFill → o.totalQty.toInt + s.1.delta.toInt ≤ Int64.maxValue.toInt) :
    o.FillsFit steps := by
  intro pre e eventId post hsteps hk
  have hcap : (o.applyEach pre).filledQty.toInt ≤ o.totalQty.toInt := by
    have := Int64.le_iff_toInt_le.1 (hc.applyEach pre)
    rwa [totalQty_applyEach] at this
  have hroom : o.totalQty.toInt + e.delta.toInt ≤ Int64.maxValue.toInt := h (e, eventId) (by simp [hsteps]) hk
  omega

/-! ### The lifecycle invariant -/

/-- What every order reachable from a new one satisfies while its fills stay words. -/
structure Sound (o : Order) : Prop where
  capped : o.Capped
  /-- Nothing negative is filled. -/
  filled_nonneg : 0 ≤ o.filledQty
  /-- A pending order remembers the live state it left. -/
  prior_of_pending : o.state.pending → o.prior = some .working ∨ o.prior = some .partiallyFilled
  /-- A live order remembers nothing. -/
  prior_of_live : o.state.live → o.prior = none
  /-- A partially filled order has filled something. -/
  filled_of_partial : o.state = .partiallyFilled → 0 < o.filledQty
  /-- So has an order that remembers partially filled, where a rejected request returns it. -/
  filled_of_prior : o.prior = some .partiallyFilled → 0 < o.filledQty

theorem sound_new (id symbol : String) {total : Int64} (h : 0 ≤ total) : (Order.new id symbol total).Sound where
  capped := h
  filled_nonneg := Int64.le_refl 0
  prior_of_pending := fun hp => by simp [Order.new, OrderState.pending] at hp
  prior_of_live := fun _ => rfl
  filled_of_partial := fun hs => by cases hs
  filled_of_prior := fun hp => by cases hp

/-- A rejected request returns a sound pending order to a live state, partially filled only when
something is filled. -/
theorem Sound.restored_live {o : Order} (h : o.Sound) (hp : o.state.pending) :
    o.restored.live ∧ (o.restored = .partiallyFilled → 0 < o.filledQty) := by
  unfold Order.restored
  rcases h.prior_of_pending hp with hw | hpf
  · simp [hw, OrderState.live]
  · simp only [hpf, OrderState.live, true_and]
    exact fun _ => h.filled_of_prior hpf

/-- A fill of positive quantity that stays a word, capped at a total no less than what is filled,
lies between what was filled and the total, and above what was filled unless it is the total. -/
theorem capped_fill {f t d : Int64} (hf : 0 ≤ f) (hft : f ≤ t) (hd : 0 < d)
    (hfit : f.toInt + d.toInt ≤ Int64.maxValue.toInt) :
    f ≤ min (f + d) t ∧ (min (f + d) t ≠ t → f < min (f + d) t) := by
  have hmin := Int64.toInt_minValue
  rw [Int64.le_iff_toInt_le, Int64.toInt_zero] at hf
  rw [Int64.le_iff_toInt_le] at hft
  rw [pos_iff_toInt] at hd
  have hsum : (min (f + d) t).toInt = min (f.toInt + d.toInt) t.toInt := by
    rw [toInt_min, toInt_add_of_le (by omega) hfit]
  rw [Int64.le_iff_toInt_le, Int64.lt_iff_toInt_lt, Ne, ← Int64.toInt_inj, hsum]
  omega

theorem Sound.addFill {o : Order} (h : o.Sound) (closes : Bool) {delta : Int64} (hd : 0 < delta)
    (hlp : o.state.live ∨ o.state.pending) (hfit : o.filledQty.toInt + delta.toInt ≤ Int64.maxValue.toInt) :
    (o.addFill closes delta).Sound := by
  have hc : (o.addFill closes delta).Capped := by
    obtain ⟨hq, ht, -⟩ := addFill_cases o closes delta
    show _ ≤ _
    rw [hq, ht, Int64.le_iff_toInt_le, toInt_min]
    omega
  obtain ⟨hq, -, hcase⟩ := addFill_cases o closes delta
  obtain ⟨hgrow, hstrict⟩ := capped_fill h.filled_nonneg h.capped hd hfit
  rw [← hq] at hgrow hstrict
  have hnonneg : 0 ≤ (o.addFill closes delta).filledQty := Int64.le_trans h.filled_nonneg hgrow
  -- a fill that does not reach the total leaves something filled
  have hpos : (o.addFill closes delta).filledQty ≠ o.totalQty → 0 < (o.addFill closes delta).filledQty :=
    fun hne => Int64.lt_of_le_of_lt h.filled_nonneg (hstrict hne)
  rcases hcase with ⟨-, hs, hp⟩ | ⟨hnot, hpend, hs, hp⟩ | ⟨hnot, hlive, hs, hp⟩
  · refine ⟨hc, hnonneg, fun hp' => by simp [hs, OrderState.pending] at hp',
      fun hl => by simp [hs, OrderState.live] at hl, fun hs' => by simp [hs] at hs', fun hpf => ?_⟩
    exact Int64.lt_of_lt_of_le (h.filled_of_prior (hp ▸ hpf)) hgrow
  · have hne : (o.addFill closes delta).filledQty ≠ o.totalQty := fun he => hnot (.inr (hq ▸ he))
    refine ⟨hc, hnonneg, fun _ => .inr hp, fun hl => ?_, fun hs' => ?_, fun _ => hpos hne⟩
    · rw [hs, OrderState.live_eq_false_of_pending hpend] at hl
      cases hl
    · rw [hs] at hs'
      simp [hs', OrderState.pending] at hpend
  · have hne : (o.addFill closes delta).filledQty ≠ o.totalQty := fun he => hnot (.inr (hq ▸ he))
    have hnone : o.prior = none := h.prior_of_live (hlp.resolve_right ‹_›)
    refine ⟨hc, hnonneg, fun hp' => by simp [hs, OrderState.pending] at hp', fun _ => hp.trans hnone,
      fun _ => hpos hne, fun hpf => by simp [hp, hnone] at hpf⟩

/-- The invariant speaks of the state, the remembered state and the quantities only. -/
theorem Sound.of_fields {o o' : Order} (h : o.Sound) (hs : o'.state = o.state) (hp : o'.prior = o.prior)
    (hq : o'.filledQty = o.filledQty) (ht : o'.totalQty = o.totalQty) : o'.Sound where
  capped := by unfold Capped; rw [hq, ht]; exact h.capped
  filled_nonneg := hq ▸ h.filled_nonneg
  prior_of_pending := by rw [hs, hp]; exact h.prior_of_pending
  prior_of_live := by rw [hs, hp]; exact h.prior_of_live
  filled_of_partial := by rw [hs, hq]; exact h.filled_of_partial
  filled_of_prior := by rw [hp, hq]; exact h.filled_of_prior

/-- A request remembers the live state the order leaves. -/
theorem Sound.request {o : Order} (h : o.Sound) (hl : o.state.live) {p : OrderState} (hp : p.pending) :
    ({ o with prior := some o.state, state := p } : Order).Sound where
  capped := h.capped
  filled_nonneg := h.filled_nonneg
  prior_of_pending := fun _ => by rcases OrderState.eq_of_live hl with hs | hs <;> simp [hs]
  prior_of_live := fun hl' => by simp [OrderState.live_eq_false_of_pending hp] at hl'
  filled_of_partial := fun hs => by dsimp only at hs; subst hs; cases hp
  filled_of_prior := fun hs => h.filled_of_partial (Option.some.inj hs)

/-- An answer forgets the remembered state, and leaves the order in a state that is not pending. -/
theorem Sound.answer {o : Order} (h : o.Sound) (hp : o.state.pending) {s : OrderState}
    (hs : s = .cancelled ∨ s = .working ∨ s = o.restored) : ({ o with state := s, prior := none } : Order).Sound where
  capped := h.capped
  filled_nonneg := h.filled_nonneg
  prior_of_pending := fun hp' => by
    rcases hs with rfl | rfl | rfl
    · cases hp'
    · cases hp'
    · simp [OrderState.pending_eq_false_of_live (h.restored_live hp).1] at hp'
  prior_of_live := fun _ => rfl
  filled_of_partial := fun hpf => by
    rcases hs with rfl | rfl | rfl
    · cases hpf
    · cases hpf
    · exact (h.restored_live hp).2 hpf
  filled_of_prior := fun hpf => by cases hpf

/-- Every move keeps the invariant, as long as a fill stays a word. -/
theorem Sound.move {o o' : Order} {e : Event} (h : o.Sound) (hfit : o.FillFits e) (hm : Moves o e o') : o'.Sound := by
  cases hm with
  | ack _ _ | late _ _ => exact h
  | fill hk _ hd hlp => exact h.addFill _ hd hlp (hfit hk)
  | request hl hp => exact h.request hl hp
  | answer hp hs => exact h.answer hp hs
  | reject hlp =>
    exact ⟨h.capped, h.filled_nonneg, (fun hp => by cases hp), (fun hl => by cases hl), (fun hs => by cases hs),
      h.filled_of_prior⟩

theorem Sound.apply {o o' : Order} {e : Event} {eventId : String} (h : o.Sound) (hfit : o.FillFits e)
    (ha : o.apply e eventId = .ok o') : o'.Sound := by
  rcases apply_eq_ok_moves ha with ⟨-, -, rfl⟩ | ⟨o₁, hm, hs, hp, hq, ht⟩
  · exact h
  · exact (h.move hfit hm).of_fields hs hp hq ht

theorem Sound.applyEach_single {o : Order} {e : Event} {eventId : String} (h : o.Sound) (hfit : o.FillFits e) :
    (o.applyEach [(e, eventId)]).Sound := by
  rcases Order.applyEach_single o e eventId with h₁ | h₁
  · rw [h₁]; exact h
  · exact h.apply hfit h₁

/-- Every run whose fills stay words keeps the invariant. -/
theorem Sound.applyEach {o : Order} (h : o.Sound) {steps : List (Event × String)} (hfits : o.FillsFit steps) :
    (o.applyEach steps).Sound := by
  induction steps generalizing o with
  | nil => exact h
  | cons s rest ih =>
    obtain ⟨e, eventId⟩ := s
    rw [← List.singleton_append, applyEach_append]
    exact ih (h.applyEach_single hfits.head) hfits.tail

/-! ### The filled quantity never decreases -/

theorem Sound.filledQty_le_move {o o' : Order} {e : Event} (h : o.Sound) (hfit : o.FillFits e)
    (hm : Moves o e o') : o.filledQty ≤ o'.filledQty := by
  cases hm with
  | fill hk _ hd _ =>
    rw [(addFill_cases o _ e.delta).1]
    exact (capped_fill h.filled_nonneg h.capped hd (hfit hk)).1
  | _ => exact Int64.le_refl _

theorem Sound.filledQty_le_apply {o o' : Order} {e : Event} {eventId : String} (h : o.Sound) (hfit : o.FillFits e)
    (ha : o.apply e eventId = .ok o') : o.filledQty ≤ o'.filledQty := by
  rcases apply_eq_ok_moves ha with ⟨-, -, rfl⟩ | ⟨o₁, hm, -, -, hq, -⟩
  · exact Int64.le_refl _
  · exact hq ▸ h.filledQty_le_move hfit hm

theorem Sound.filledQty_le_applyEach {o : Order} (h : o.Sound) {steps : List (Event × String)}
    (hfits : o.FillsFit steps) : o.filledQty ≤ (o.applyEach steps).filledQty := by
  induction steps generalizing o with
  | nil => exact Int64.le_refl _
  | cons s rest ih =>
    obtain ⟨e, eventId⟩ := s
    rw [← List.singleton_append, applyEach_append]
    have hfirst : o.filledQty ≤ (o.applyEach [(e, eventId)]).filledQty := by
      rcases Order.applyEach_single o e eventId with h₁ | h₁
      · rw [h₁]; exact Int64.le_refl _
      · exact h.filledQty_le_apply hfits.head h₁
    exact Int64.le_trans hfirst (ih (h.applyEach_single hfits.head) hfits.tail)

/-! ### Terminal orders -/

/-- A terminal order moves only by a late fill, when it is filled. -/
theorem moves_of_terminal {o o' : Order} {e : Event} (ht : o.state.terminal) (hm : Moves o e o') :
    o' = o ∧ o.state = .filled ∧ e.kind.isFill := by
  have hn := OrderState.not_live_of_terminal ht
  cases hm with
  | late hk hf => exact ⟨rfl, hf, hk⟩
  | ack _ hl | request hl _ => simp [hn.1] at hl
  | fill _ _ _ hlp | reject hlp => simp [hn.1, hn.2] at hlp
  | answer hp _ => simp [hn.2] at hp

/-- A filled order takes every fill, which changes nothing. -/
theorem step_late {o : Order} {e : Event} (hf : o.state = .filled) (hk : e.kind.isFill) : o.step e = some o := by
  unfold step
  cases hkind : e.kind <;> simp only [hkind, EventKind.isFill, Bool.false_eq_true] at hk <;> simp only [if_pos hf]

/-- No event a terminal order takes changes its state or its filled quantity. -/
theorem apply_of_terminal {o o' : Order} {e : Event} {eventId : String} (ht : o.state.terminal)
    (ha : o.apply e eventId = .ok o') : o'.state = o.state ∧ o'.filledQty = o.filledQty := by
  rcases apply_eq_ok_moves ha with ⟨-, -, rfl⟩ | ⟨o₁, hm, hs, -, hq, -⟩
  · exact ⟨rfl, rfl⟩
  · obtain ⟨rfl, -, -⟩ := moves_of_terminal ht hm
    exact ⟨hs, hq⟩

/-- A terminal order takes a fill when it is filled, and any event under an id it has taken; it
refuses every other event. -/
theorem apply_of_terminal_iff {o : Order} {e : Event} {eventId : String} (ht : o.state.terminal) :
    (∃ o', o.apply e eventId = .ok o') ↔ (o.state = .filled ∧ e.kind.isFill) ∨ (eventId ≠ "" ∧ eventId ∈ o.seen) := by
  constructor
  · rintro ⟨o', ha⟩
    rcases apply_eq_ok_moves ha with ⟨hne, hmem, -⟩ | ⟨o₁, hm, -⟩
    · exact .inr ⟨hne, hmem⟩
    · exact .inl (moves_of_terminal ht hm).2
  · rintro (⟨hf, hk⟩ | ⟨hne, hmem⟩)
    · unfold apply
      split
      · exact ⟨o, rfl⟩
      · rw [step_late hf hk]
        exact ⟨_, rfl⟩
    · exact ⟨o, apply_of_seen hne hmem⟩

/-- A terminal order keeps its state and filled quantity through every run. -/
theorem applyEach_of_terminal {o : Order} (ht : o.state.terminal) (steps : List (Event × String)) :
    (o.applyEach steps).state = o.state ∧ (o.applyEach steps).filledQty = o.filledQty :=
  applyEach_induction (P := fun o' => o'.state = o.state ∧ o'.filledQty = o.filledQty)
    (fun _ _ _ _ hp ha => by
      obtain ⟨hs, hq⟩ := apply_of_terminal (hp.1 ▸ ht) ha
      exact ⟨hs.trans hp.1, hq.trans hp.2⟩) o steps ⟨rfl, rfl⟩

/-! ### Fills while a request is pending -/

/-- Between two pending states a sound order moves only by a fill, after which it remembers
partially filled. -/
theorem Sound.prior_move_of_pending {o o' : Order} {e : Event} (h : o.Sound) (hm : Moves o e o')
    (hp : o.state.pending) (hp' : o'.state.pending) : o'.prior = some .partiallyFilled := by
  cases hm with
  | ack _ hl | request hl _ => simp [OrderState.live_eq_false_of_pending hp] at hl
  | late _ hf => simp [hf, OrderState.pending] at hp
  | fill =>
    rcases (addFill_cases o (e.kind = .fill) e.delta).2.2 with ⟨-, hs, -⟩ | ⟨-, -, -, hprior⟩ | ⟨-, hnp, -⟩
    · simp [hs, OrderState.pending] at hp'
    · exact hprior
    · exact absurd hp hnp
  | answer _ hs =>
    dsimp only at hp'
    rcases hs with rfl | rfl | rfl
    · cases hp'
    · cases hp'
    · simp [OrderState.pending_eq_false_of_live (h.restored_live hp).1] at hp'
  | reject _ => cases hp'

/-- While a sound order stays pending, an event it takes keeps what it remembers or makes that
partially filled. -/
theorem Sound.prior_apply_of_pending {o o' : Order} {e : Event} {eventId : String} (h : o.Sound)
    (ha : o.apply e eventId = .ok o') (hp : o.state.pending) (hp' : o'.state.pending) :
    o'.prior = o.prior ∨ o'.prior = some .partiallyFilled := by
  rcases apply_eq_ok_moves ha with ⟨-, -, rfl⟩ | ⟨o₁, hm, hs, hpr, -, -⟩
  · exact .inl rfl
  · exact .inr (hpr.trans (h.prior_move_of_pending hm hp (hs ▸ hp')))

/-- A pending order that remembers partially filled keeps remembering it while it stays pending. -/
theorem Sound.prior_applyEach_of_pending {o : Order} (h : o.Sound) {steps : List (Event × String)}
    (hfits : o.FillsFit steps) (hprior : o.prior = some .partiallyFilled)
    (hpend : ∀ m, m <+: steps → (o.applyEach m).state.pending) :
    (o.applyEach steps).prior = some .partiallyFilled := by
  induction steps generalizing o with
  | nil => exact hprior
  | cons s rest ih =>
    obtain ⟨e, eventId⟩ := s
    rw [← List.singleton_append, applyEach_append]
    have hp : o.state.pending := hpend [] (List.nil_prefix)
    have hp₁ : (o.applyEach [(e, eventId)]).state.pending := hpend [(e, eventId)] (by simp)
    have hprior₁ : (o.applyEach [(e, eventId)]).prior = some .partiallyFilled := by
      rcases Order.applyEach_single o e eventId with h₁ | h₁
      · rw [h₁]; exact hprior
      · rcases h.prior_apply_of_pending h₁ hp hp₁ with h₂ | h₂
        · exact h₂.trans hprior
        · exact h₂
    refine ih (h.applyEach_single hfits.head) hfits.tail hprior₁ fun m hm => ?_
    rw [← applyEach_append]
    exact hpend _ (by simpa using hm)

/-- A fill of positive quantity taken under a new id while a request is pending leaves the order
remembering partially filled for as long as it stays pending. -/
theorem Sound.prior_after_pending_fill {o : Order} (h : o.Sound) {e : Event} {eventId : String}
    {rest : List (Event × String)} (hfits : o.FillsFit ((e, eventId) :: rest)) (hp : o.state.pending)
    (hk : e.kind.isFill) (hd : 0 < e.delta) (hnew : eventId = "" ∨ eventId ∉ o.seen)
    (hpend : ∀ m, m <+: rest → (o.applyEach ((e, eventId) :: m)).state.pending) :
    (o.applyEach ((e, eventId) :: rest)).prior = some .partiallyFilled := by
  have hfresh : ¬(eventId ≠ "" ∧ eventId ∈ o.seen) := fun ⟨hne, hmem⟩ => hnew.elim hne (absurd hmem)
  obtain ⟨q, hq⟩ : ∃ q, o.apply e eventId = .ok q := by
    unfold Order.apply
    rw [if_neg (by simpa [hasSeen] using hfresh), step_fill_of_pending hp hk hd]
    exact ⟨_, rfl⟩
  have hrun : o.applyEach [(e, eventId)] = q := by simp only [Order.applyEach, hq]
  have hpq : q.state.pending := by
    have := hpend [] List.nil_prefix
    rwa [← List.singleton_append, applyEach_append, hrun, Order.applyEach] at this
  have hprior : q.prior = some .partiallyFilled := by
    rcases apply_eq_ok_moves hq with ⟨hne, hmem, -⟩ | ⟨o₁, hm, hs, hpr, -, -⟩
    · exact absurd ⟨hne, hmem⟩ hfresh
    · exact hpr.trans (h.prior_move_of_pending hm hp (hs ▸ hpq))
  rw [← List.singleton_append, applyEach_append, hrun]
  refine (h.apply hfits.head hq).prior_applyEach_of_pending ?_ hprior fun m hm => ?_
  · simpa only [hrun] using hfits.tail
  · rw [← hrun, ← applyEach_append]
    exact hpend m hm

/-! ### Runs from a new order -/

/-- The quantities of an order along a run: nothing beyond the total is ever filled, and while the
fills stay words nothing negative is filled and the filled quantity never decreases. -/
theorem run_keeps_quantities (id symbol : String) (total : Int64) (steps : List (Event × String))
    (htot : 0 ≤ total) :
    let o := Order.new id symbol total
    (∀ pre, pre <+: steps → (o.applyEach pre).filledQty ≤ (o.applyEach pre).totalQty) ∧
    (o.FillsFit steps →
      (∀ pre, pre <+: steps → 0 ≤ (o.applyEach pre).filledQty) ∧
      ∀ pre mid, pre ++ mid <+: steps → (o.applyEach pre).filledQty ≤ (o.applyEach (pre ++ mid)).filledQty) := by
  intro o
  refine ⟨fun pre _ => (capped_new id symbol htot).applyEach pre, fun hfits => ⟨?_, ?_⟩⟩
  · rintro pre ⟨post, rfl⟩
    exact ((sound_new id symbol htot).applyEach hfits.left).filled_nonneg
  · rintro pre mid ⟨post, rfl⟩
    have hfits' : o.FillsFit (pre ++ mid) := hfits.left
    rw [applyEach_append]
    exact ((sound_new id symbol htot).applyEach hfits'.left).filledQty_le_applyEach hfits'.right

/-- A cancel request, a partial fill of 25 while it is pending, a rejection of the cancel and a
fill of the rest, on an order of 100: every fill fits the range of words. -/
theorem run_keeps_quantities_of_four_events :
    let steps : List (Event × String) :=
      [(⟨.cancelRequest, 0⟩, "c1"), (⟨.partialFill, 25⟩, "f1"), (⟨.cancelReject, 0⟩, "c2"), (⟨.fill, 75⟩, "f2")]
    (0 : Int64) ≤ 100 ∧ (Order.new "o1" "AAPL" 100).FillsFit steps ∧
    let o := Order.new "o1" "AAPL" 100
    (∀ pre, pre <+: steps → (o.applyEach pre).filledQty ≤ (o.applyEach pre).totalQty) ∧
    (o.FillsFit steps →
      (∀ pre, pre <+: steps → 0 ≤ (o.applyEach pre).filledQty) ∧
      ∀ pre mid, pre ++ mid <+: steps → (o.applyEach pre).filledQty ≤ (o.applyEach (pre ++ mid)).filledQty) :=
  ⟨by decide, fillsFit_of_headroom (capped_new "o1" "AAPL" (by decide)) (by decide),
    run_keeps_quantities "o1" "AAPL" 100 _ (by decide)⟩

/-- A fill of the largest word after a fill of one wraps the filled quantity around to the least
word: below zero and below what was filled before, and the order stays partially filled. -/
theorem fill_wraps_below_zero :
    let o := Order.new "o1" "AAPL" 10
    (o.applyEach [(⟨.partialFill, 1⟩, "f1")]).filledQty = 1 ∧
    (o.applyEach [(⟨.partialFill, 1⟩, "f1"), (⟨.partialFill, Int64.maxValue⟩, "f2")]).filledQty = Int64.minValue ∧
    (o.applyEach [(⟨.partialFill, 1⟩, "f1"), (⟨.partialFill, Int64.maxValue⟩, "f2")]).state = .partiallyFilled := by
  decide

/-- **Lifecycle of an order.** Take a new order with a total that is not negative, and events
with their ids, none of them a fill that makes the filled quantity plus its own leave the range
of words.

* Once the order is filled, cancelled or rejected, no later event changes its state or its filled
  quantity. It then takes a fill if it is filled, and any event under an id it has taken before,
  and refuses every other event.
* At every point of the run a pending order remembers working or partially filled, a live order
  remembers nothing, and a partially filled order has filled something.
* After a fill of positive quantity is taken under a new id while a request is pending, the order
  remembers partially filled for as long as it stays pending. -/
theorem run_keeps_lifecycle (id symbol : String) (total : Int64) (steps : List (Event × String))
    (htot : 0 ≤ total) (hfits : (Order.new id symbol total).FillsFit steps) :
    let o := Order.new id symbol total
    (∀ pre mid, pre ++ mid <+: steps → (o.applyEach pre).state.terminal →
      (o.applyEach (pre ++ mid)).state = (o.applyEach pre).state ∧
        (o.applyEach (pre ++ mid)).filledQty = (o.applyEach pre).filledQty) ∧
    (∀ pre e eventId, pre ++ [(e, eventId)] <+: steps → (o.applyEach pre).state.terminal →
      ((∃ o', (o.applyEach pre).apply e eventId = .ok o') ↔
        ((o.applyEach pre).state = .filled ∧ e.kind.isFill) ∨ (eventId ≠ "" ∧ eventId ∈ (o.applyEach pre).seen))) ∧
    (∀ pre, pre <+: steps →
      ((o.applyEach pre).state.pending →
        (o.applyEach pre).prior = some .working ∨ (o.applyEach pre).prior = some .partiallyFilled) ∧
      ((o.applyEach pre).state.live → (o.applyEach pre).prior = none) ∧
      ((o.applyEach pre).state = .partiallyFilled → (o.applyEach pre).filledQty ≠ 0)) ∧
    (∀ pre e eventId mid, pre ++ (e, eventId) :: mid <+: steps → (o.applyEach pre).state.pending →
      e.kind.isFill → 0 < e.delta → (eventId = "" ∨ eventId ∉ (o.applyEach pre).seen) →
      (∀ m, m <+: mid → (o.applyEach (pre ++ (e, eventId) :: m)).state.pending) →
      (o.applyEach (pre ++ (e, eventId) :: mid)).prior = some .partiallyFilled) := by
  intro o
  have hsound : ∀ pre, pre <+: steps → (o.applyEach pre).Sound := by
    rintro pre ⟨post, rfl⟩
    exact (sound_new id symbol htot).applyEach hfits.left
  refine ⟨fun pre mid _ ht => ?_, fun pre e eventId _ ht => apply_of_terminal_iff ht,
    fun pre hpre => ?_, fun pre e eventId mid hpre hp hk hd hnew hpend => ?_⟩
  · rw [applyEach_append]
    exact applyEach_of_terminal ht mid
  · have h := hsound pre hpre
    refine ⟨h.prior_of_pending, h.prior_of_live, fun hs hz => ?_⟩
    exact Int64.ne_of_lt (h.filled_of_partial hs) hz.symm
  · obtain ⟨post, hsteps⟩ := hpre
    have hfits' : (o.applyEach pre).FillsFit ((e, eventId) :: mid) := by
      rw [← hsteps] at hfits
      exact hfits.left.right
    rw [applyEach_append]
    refine (hsound pre ⟨(e, eventId) :: mid ++ post, by simp [← hsteps]⟩).prior_after_pending_fill hfits' hp hk hd
      hnew fun m hm => ?_
    rw [← applyEach_append]
    exact hpend m hm

/-- A cancel request, a partial fill of 25 while it is pending, a rejection of the cancel and a
fill of the rest, on an order of 100: every fill fits the range of words. -/
theorem run_keeps_lifecycle_of_four_events :
    let steps : List (Event × String) :=
      [(⟨.cancelRequest, 0⟩, "c1"), (⟨.partialFill, 25⟩, "f1"), (⟨.cancelReject, 0⟩, "c2"), (⟨.fill, 75⟩, "f2")]
    (0 : Int64) ≤ 100 ∧ (Order.new "o1" "AAPL" 100).FillsFit steps ∧
    let o := Order.new "o1" "AAPL" 100
    (∀ pre mid, pre ++ mid <+: steps → (o.applyEach pre).state.terminal →
      (o.applyEach (pre ++ mid)).state = (o.applyEach pre).state ∧
        (o.applyEach (pre ++ mid)).filledQty = (o.applyEach pre).filledQty) ∧
    (∀ pre e eventId, pre ++ [(e, eventId)] <+: steps → (o.applyEach pre).state.terminal →
      ((∃ o', (o.applyEach pre).apply e eventId = .ok o') ↔
        ((o.applyEach pre).state = .filled ∧ e.kind.isFill) ∨ (eventId ≠ "" ∧ eventId ∈ (o.applyEach pre).seen))) ∧
    (∀ pre, pre <+: steps →
      ((o.applyEach pre).state.pending →
        (o.applyEach pre).prior = some .working ∨ (o.applyEach pre).prior = some .partiallyFilled) ∧
      ((o.applyEach pre).state.live → (o.applyEach pre).prior = none) ∧
      ((o.applyEach pre).state = .partiallyFilled → (o.applyEach pre).filledQty ≠ 0)) ∧
    (∀ pre e eventId mid, pre ++ (e, eventId) :: mid <+: steps → (o.applyEach pre).state.pending →
      e.kind.isFill → 0 < e.delta → (eventId = "" ∨ eventId ∉ (o.applyEach pre).seen) →
      (∀ m, m <+: mid → (o.applyEach (pre ++ (e, eventId) :: m)).state.pending) →
      (o.applyEach (pre ++ (e, eventId) :: mid)).prior = some .partiallyFilled) :=
  have hfits : (Order.new "o1" "AAPL" 100).FillsFit
      [(⟨.cancelRequest, 0⟩, "c1"), (⟨.partialFill, 25⟩, "f1"), (⟨.cancelReject, 0⟩, "c2"), (⟨.fill, 75⟩, "f2")] :=
    fillsFit_of_headroom (capped_new "o1" "AAPL" (by decide)) (by decide)
  ⟨by decide, hfits, run_keeps_lifecycle "o1" "AAPL" 100 _ (by decide) hfits⟩

/-- A cancelled order takes a fill delivered under the id of its cancel request, as a delivery
again that changes nothing, although it is neither filled nor a fill of a filled order. -/
theorem cancelled_takes_redelivered_fill :
    let p := (Order.new "o1" "AAPL" 10).applyEach [(⟨.cancelRequest, 0⟩, "c1"), (⟨.cancelAck, 0⟩, "c2")]
    p.state = .cancelled ∧ p.apply ⟨.partialFill, 5⟩ "c1" = .ok p := by
  intro p
  have hseen : "c1" ∈ p.seen := by decide
  exact ⟨by decide, apply_of_seen (by decide) hseen⟩

end Order

end TradeDesk
