import TradeDesk.Order.Basic
/-!
# Replaying an order's events

A caller holding an order applies events to it one at a time, each with its event id, and keeps
the order as it was when `Order.apply` refuses (`Order.applyEach`). Three facts make such a
history safe to replay.

* A refused event changes nothing: `apply` answers a refusal and no order, so the caller's order
  stands.
* An id is remembered exactly when its event was taken, and no event forgets one
  (`Order.seen_applyEach`). So once an event with a non-empty id has been taken, delivering it
  again at any later point is accepted and changes nothing (`Order.apply_of_seen`).
* The events taken, `Order.acceptedSteps`, applied alone to the same starting order, are each
  accepted and rebuild the same order, field for field (`Order.replay_acceptedSteps`): the
  refused events in between never touched it.
-/

namespace TradeDesk

namespace Order

/-- The order after one `apply` per step, in order; a refused step leaves it as it was. -/
def applyEach (o : Order) : List (Event × String) → Order
  | [] => o
  | (e, eventId) :: rest =>
    match o.apply e eventId with
    | .ok o' => applyEach o' rest
    | .error _ => applyEach o rest

/-- The steps of `applyEach` that `apply` took, in order. -/
def acceptedSteps (o : Order) : List (Event × String) → List (Event × String)
  | [] => []
  | (e, eventId) :: rest =>
    match o.apply e eventId with
    | .ok o' => (e, eventId) :: acceptedSteps o' rest
    | .error _ => acceptedSteps o rest

/-- Applies steps in order and stops at the first refusal. -/
def replay (o : Order) : List (Event × String) → Except Fault Order
  | [] => .ok o
  | (e, eventId) :: rest =>
    match o.apply e eventId with
    | .ok o' => replay o' rest
    | .error f => .error f

/-! ### One event -/

theorem addFill_keeps (o : Order) (closes : Bool) (delta : Int64) :
    (o.addFill closes delta).id = o.id ∧ (o.addFill closes delta).symbol = o.symbol ∧
      (o.addFill closes delta).totalQty = o.totalQty ∧ (o.addFill closes delta).seen = o.seen := by
  simp only [addFill]
  repeat' split
  all_goals exact ⟨rfl, rfl, rfl, rfl⟩

/-- The transition rule changes only an order's state, filled quantity and remembered prior state. -/
theorem step_keeps {o o' : Order} {e : Event} (h : o.step e = some o') :
    o'.id = o.id ∧ o'.symbol = o.symbol ∧ o'.totalQty = o.totalQty ∧ o'.seen = o.seen := by
  unfold step at h
  repeat' split at h
  all_goals cases h <;> simp only [addFill_keeps, and_self]

theorem seen_step {o o' : Order} {e : Event} (h : o.step e = some o') : o'.seen = o.seen :=
  (step_keeps h).2.2.2

/-- An event is taken as a delivery again of a remembered id, which changes nothing, or by the
transition rule, with its id remembered when it has one. -/
theorem apply_eq_ok {o o' : Order} {e : Event} {eventId : String} (h : o.apply e eventId = .ok o') :
    (eventId ≠ "" ∧ eventId ∈ o.seen ∧ o' = o) ∨
      ∃ o₁, o.step e = some o₁ ∧ o' = if eventId = "" then o₁ else { o₁ with seen := o₁.seen ++ [eventId] } := by
  unfold apply at h
  split at h
  · rename_i hseen
    cases h
    exact .inl ⟨hseen.1, by simpa [hasSeen] using hseen.2, rfl⟩
  · split at h
    · cases h
    · rename_i o₁ hs
      cases h
      exact .inr ⟨o₁, hs, rfl⟩

theorem apply_keeps {o o' : Order} {e : Event} {eventId : String} (h : o.apply e eventId = .ok o') :
    o'.id = o.id ∧ o'.symbol = o.symbol ∧ o'.totalQty = o.totalQty := by
  rcases apply_eq_ok h with ⟨-, -, rfl⟩ | ⟨o₁, hs, rfl⟩
  · exact ⟨rfl, rfl, rfl⟩
  · obtain ⟨hid, hsym, htot, -⟩ := step_keeps hs
    split <;> exact ⟨hid, hsym, htot⟩

/-- An event that is taken keeps every remembered id, and remembers its own when it has one. -/
theorem seen_apply {o o' : Order} {e : Event} {eventId : String} (h : o.apply e eventId = .ok o') :
    (∀ x ∈ o.seen, x ∈ o'.seen) ∧ (eventId ≠ "" → eventId ∈ o'.seen) := by
  rcases apply_eq_ok h with ⟨-, hseen, rfl⟩ | ⟨o₁, hs, rfl⟩
  · exact ⟨fun _ hx => hx, fun _ => hseen⟩
  · split
    · rename_i hempty
      exact ⟨fun x hx => (seen_step hs).symm ▸ hx, fun hne => absurd hempty hne⟩
    · refine ⟨fun x hx => ?_, fun _ => ?_⟩
      · simp [seen_step hs, hx]
      · simp

/-- Delivering again an event whose non-empty id was taken is accepted and changes nothing. -/
theorem apply_of_seen {o : Order} {e : Event} {eventId : String} (hid : eventId ≠ "") (h : eventId ∈ o.seen) :
    o.apply e eventId = .ok o := by
  have hseen : eventId ≠ "" ∧ o.hasSeen eventId = true := ⟨hid, by simpa [hasSeen] using h⟩
  simp only [apply, if_pos hseen]

/-! ### Runs of events -/

theorem applyEach_append (o : Order) (xs ys : List (Event × String)) :
    o.applyEach (xs ++ ys) = (o.applyEach xs).applyEach ys := by
  induction xs generalizing o with
  | nil => rfl
  | cons s rest ih =>
    obtain ⟨e, eventId⟩ := s
    simp only [List.cons_append, applyEach]
    split <;> exact ih _

theorem seen_applyEach {o : Order} {x : String} (h : x ∈ o.seen) :
    ∀ steps : List (Event × String), x ∈ (o.applyEach steps).seen := by
  intro steps
  induction steps generalizing o with
  | nil => exact h
  | cons s rest ih =>
    obtain ⟨e, eventId⟩ := s
    simp only [applyEach]
    split
    · rename_i o' ho'
      exact ih ((seen_apply ho').1 x h)
    · exact ih h

/-- The taken steps, replayed alone, are all taken again and end in the same order. -/
theorem replay_acceptedSteps (o : Order) (steps : List (Event × String)) :
    o.replay (o.acceptedSteps steps) = .ok (o.applyEach steps) := by
  induction steps generalizing o with
  | nil => rfl
  | cons s rest ih =>
    obtain ⟨e, eventId⟩ := s
    simp only [acceptedSteps, applyEach]
    split
    · rename_i o' ho'
      simp only [replay, ho']
      exact ih o'
    · exact ih o

/-- **Replay law of an order.** Take a new order and any events with non-empty ids, applied one
at a time. A refused event leaves the order as it was. An event that was taken, delivered again
after any further events, is taken and changes nothing. The taken events alone, applied to the
same new order, are each taken and end in the same order: its state, filled quantity, remembered
prior state and remembered ids. -/
theorem replay_keeps_accepted (id symbol : String) (total : Int64) (steps : List (Event × String))
    (hid : ∀ s ∈ steps, s.2 ≠ "") :
    let o := Order.new id symbol total
    (∀ pre e eventId post f, steps = pre ++ (e, eventId) :: post →
      (o.applyEach pre).apply e eventId = .error f → o.applyEach (pre ++ [(e, eventId)]) = o.applyEach pre) ∧
    (∀ pre e eventId post o', steps = pre ++ (e, eventId) :: post →
      (o.applyEach pre).apply e eventId = .ok o' →
      ∀ later, (o'.applyEach later).apply e eventId = .ok (o'.applyEach later)) ∧
    o.replay (o.acceptedSteps steps) = .ok (o.applyEach steps) := by
  intro o
  refine ⟨?_, ?_, replay_acceptedSteps o steps⟩
  · intro pre e eventId post f _ hf
    simp only [applyEach_append, applyEach, hf]
  · intro pre e eventId post o' hsteps ho' later
    have hne : eventId ≠ "" := hid (e, eventId) (by simp [hsteps])
    exact apply_of_seen hne (seen_applyEach ((seen_apply ho').2 hne) later)

/-- Three events with ids: an acknowledgement, an illegal cancel acknowledgement, and a partial
fill of three. -/
theorem replay_keeps_accepted_of_three_events :
    let steps : List (Event × String) := [(⟨.ack, 0⟩, "a"), (⟨.cancelAck, 0⟩, "b"), (⟨.partialFill, 3⟩, "c")]
    (∀ s ∈ steps, s.2 ≠ "") ∧
    let o := Order.new "o" "ABC" 10
    (∀ pre e eventId post f, steps = pre ++ (e, eventId) :: post →
      (o.applyEach pre).apply e eventId = .error f → o.applyEach (pre ++ [(e, eventId)]) = o.applyEach pre) ∧
    (∀ pre e eventId post o', steps = pre ++ (e, eventId) :: post →
      (o.applyEach pre).apply e eventId = .ok o' →
      ∀ later, (o'.applyEach later).apply e eventId = .ok (o'.applyEach later)) ∧
    o.replay (o.acceptedSteps steps) = .ok (o.applyEach steps) :=
  ⟨by decide, replay_keeps_accepted "o" "ABC" 10 _ (by decide)⟩

end Order

end TradeDesk
