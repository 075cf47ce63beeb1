import TradeDesk.Proofs.Desk.Gates
import TradeDesk.Proofs.Desk.Restore
import TradeDesk.Proofs.Order.Replay
/-!
# Pending replaces

The desk keeps the quantity of every replace it asked the broker for (`Desk.replacing`) until the
broker answers. One step writes an entry: a replace call the broker accepted, whose request the
order took, which makes the order wait for the answer. An order event drops the order's entry
when it answers a replace or makes the order terminal. So every entry belongs to a tracked order
still waiting for a replace (`Desk.PendingReplaces`), in every world a desk reaches.

The converse fails in two ways. A replace request that reaches the desk as a broker event makes
the order wait with no entry. And the desk does its bookkeeping for every replace acknowledgement
the order takes, a delivery again of an id the order already took included: such a delivery,
while the order waits for a later replace, sets the total to that replace's quantity and drops
its entry, and the order keeps waiting (`replacePending_without_entry`).

An order's total changes only by a replace acknowledgement for it while its entry asks for at
least what is filled; it becomes that quantity. `Desk.Evolves` is what every other step keeps:
no entry written, every tracked order tracked with its total, and the invariant. A replace call
keeps the same but for the one entry it writes (`Desk.Replaces`).
-/

namespace TradeDesk

/-! ### One order -/

namespace Order

theorem state_addFill (o : Order) (closes : Bool) (delta : Int64) :
    (o.addFill closes delta).state = .filled ∨
      (o.addFill closes delta).state = if o.state.pending then o.state else .partiallyFilled := by
  simp only [addFill]
  split
  · exact .inl rfl
  · split
    · exact .inr (by simp)
    · exact .inr (by simp)

/-- An order waiting for a replace leaves that state only by the answer to it or by becoming
terminal: a fill keeps it waiting unless it fills the order. -/
theorem step_of_replacePending {o o' : Order} {e : Event} (hs : o.state = .replacePending) (h : o.step e = some o')
    (hack : e.kind ≠ .replaceAck) (hrej : e.kind ≠ .replaceReject) :
    o'.state = .replacePending ∨ o'.state.terminal = true := by
  unfold step at h
  cases hk : e.kind with
  | replaceAck => exact absurd hk hack
  | replaceReject => exact absurd hk hrej
  | partialFill | fill =>
    simp only [hk, hs, reduceCtorEq, if_false, OrderState.live, OrderState.pending, Bool.false_or,
      Bool.not_true, Bool.false_eq_true, or_false] at h
    split at h
    · cases h
    · cases h
      rcases state_addFill o _ e.delta with hf | hp
      · exact .inr (by rw [hf]; rfl)
      · exact .inl (by simpa [hs, OrderState.pending] using hp)
  | reject =>
    simp only [hk, hs, OrderState.live, OrderState.pending, Bool.or_true, if_true, Option.some.injEq] at h
    cases h
    exact .inr rfl
  | _ => simp [hk, hs, OrderState.live] at h

/-- The answer to a replace is legal only while the order waits for it, and makes it working. -/
theorem step_replaceAck {o o' : Order} {e : Event} (hk : e.kind = .replaceAck) (h : o.step e = some o') :
    o.state = .replacePending ∧ o'.state = .working := by
  simp only [step, hk] at h
  split at h
  · rename_i hs
    cases h
    exact ⟨hs, rfl⟩
  · cases h

/-- A replace request is legal only for a live order, and makes it wait for the answer. -/
theorem step_replaceRequest {o o' : Order} {e : Event} (hk : e.kind = .replaceRequest) (h : o.step e = some o') :
    o.state.live = true ∧ o'.state = .replacePending := by
  simp only [step, hk] at h
  split at h
  · rename_i hs
    cases h
    exact ⟨hs, rfl⟩
  · cases h

/-- An event taken under an id the order has not taken goes through the transition rule, which
decides the order's state. -/
theorem step_of_apply {o o' : Order} {e : Event} {eventId : String} (h : o.apply e eventId = .ok o')
    (hnew : ¬(eventId ≠ "" ∧ eventId ∈ o.seen)) : ∃ o₁, o.step e = some o₁ ∧ o'.state = o₁.state := by
  rcases apply_eq_ok h with ⟨hne, hmem, -⟩ | ⟨o₁, hs, rfl⟩
  · exact absurd ⟨hne, hmem⟩ hnew
  · exact ⟨o₁, hs, by split <;> rfl⟩

theorem state_apply_of_replacePending {o o' : Order} {e : Event} {eventId : String} (hs : o.state = .replacePending)
    (h : o.apply e eventId = .ok o') (hack : e.kind ≠ .replaceAck) (hrej : e.kind ≠ .replaceReject) :
    o'.state = .replacePending ∨ o'.state.terminal = true := by
  rcases apply_eq_ok h with ⟨-, -, rfl⟩ | ⟨o₁, hstep, rfl⟩
  · exact .inl hs
  · have hst : (if eventId = "" then o₁ else { o₁ with seen := o₁.seen ++ [eventId] }).state = o₁.state := by
      split <;> rfl
    rw [hst]
    exact step_of_replacePending hs hstep hack hrej

end Order

/-! ### One order event -/

namespace Desk

variable {d d' d'' : Desk} {k : String} {ev : Event} {eventId : String}

/-- What an event the desk takes does to the order's quantities and to the pending-replace table.
The filled quantity is the order's after the event, and so is the total, unless the event is a
replace acknowledgement and the order's entry asks for at least that filled quantity, which the
total then becomes. The entry goes when the event answers a replace or makes the order terminal. -/
theorem applyEventCore_ok_replacing {o o₁ o' : Order} {t : Bool} (h : d.applyEventCore k ev eventId = (.ok (o', t), d'))
    (ho : d.order? k = some o) (h₁ : o.apply ev eventId = .ok o₁) :
    o'.filledQty = o₁.filledQty ∧
      (o'.totalQty = o₁.totalQty ∨
        (ev.kind = .replaceAck ∧ d.replacing.lookup k = some o'.totalQty ∧ o₁.filledQty ≤ o'.totalQty)) ∧
      d'.replacing = if (ev.kind = .replaceAck ∨ ev.kind = .replaceReject) ∨ t = true
        then d.replacing.filter (·.1 ≠ k) else d.replacing := by
  unfold applyEventCore at h
  rw [ho] at h
  dsimp only at h
  split at h
  · cases h
  · rw [h₁] at h
    dsimp only at h
    simp only [Prod.mk.injEq, Except.ok.injEq] at h
    obtain ⟨⟨ho', ht⟩, hd⟩ := h
    refine ⟨?_, ?_, ?_⟩
    · rw [← ho']
      split
      · split
        · split <;> rfl
        · rfl
      · rfl
    · -- only an acknowledgement with an entry asking for at least what is filled moves the total
      rw [← ho']
      split
      · rename_i hk
        split
        · rename_i q hq
          split
          · rename_i hle
            exact .inr ⟨hk, hq, hle⟩
          · exact .inl rfl
        · exact .inl rfl
      · exact .inl rfl
    · rw [ho'] at ht hd
      rw [← hd, ← ht]
      simp only [apply_ite Desk.replacing, Desk.putOrder, ite_self]

/-- An event the desk takes changes no tracked order but its own, which it puts in place. -/
theorem order?_applyEventCore_ok {o' : Order} {t : Bool} (h : d.applyEventCore k ev eventId = (.ok (o', t), d'))
    (j : String) : d'.order? j = if k = j then some o' else d.order? j := by
  obtain ⟨-, -, -, -, -, hid, -, -, hord, -⟩ := applyEventCore_ok h
  rw [order?_congr (d := d.putOrder o') hord, order?_putOrder, hid]

/-- No event writes an entry of the pending-replace table. -/
theorem replacing_applyEventCore {r : Except Fault (Order × Bool)} (h : d.applyEventCore k ev eventId = (r, d')) :
    ∀ e ∈ d'.replacing, e ∈ d.replacing := by
  intro e he
  cases r with
  | error f => rwa [(applyEventCore_error h).2.2] at he
  | ok p =>
    obtain ⟨o', t⟩ := p
    obtain ⟨o, o₁, ho, h₁, -⟩ := applyEventCore_ok h
    rw [(applyEventCore_ok_replacing h ho h₁).2.2] at he
    split at he
    · exact (List.mem_filter.1 he).1
    · exact he

/-- An event changes no tracked order's total but its own, and that one only as a replace
acknowledgement while the order's entry asks for at least what is filled, which the total becomes.
Unless the acknowledgement repeats an id the order took, the order was waiting and now works. -/
theorem totals_applyEventCore {r : Except Fault (Order × Bool)} (he : d.applyEventCore k ev eventId = (r, d'))
    {j : String} {o : Order} (hj : d.order? j = some o) :
    ∃ o', d'.order? j = some o' ∧ (o'.totalQty = o.totalQty ∨
      (j = k ∧ ev.kind = .replaceAck ∧ d.replacing.lookup k = some o'.totalQty ∧ o'.filledQty ≤ o'.totalQty ∧
        (¬(eventId ≠ "" ∧ eventId ∈ o.seen) → o.state = .replacePending ∧ o'.state = .working))) := by
  cases r with
  | error f => exact ⟨o, (order?_congr (applyEventCore_error he).2.1 j).trans hj, .inl rfl⟩
  | ok p =>
    obtain ⟨o', t⟩ := p
    rw [order?_applyEventCore_ok he]
    split
    · rename_i hkj
      subst hkj
      obtain ⟨o₀, o₁, ho, h₁, hst, -⟩ := applyEventCore_ok he
      rw [hj] at ho
      cases ho
      obtain ⟨hfill, htot, -⟩ := applyEventCore_ok_replacing he hj h₁
      refine ⟨o', rfl, ?_⟩
      rcases htot with htot | ⟨hk, hq, hle⟩
      · exact .inl (htot.trans (Order.apply_keeps h₁).2.2)
      · refine .inr ⟨rfl, hk, hq, hfill ▸ hle, fun hnew => ?_⟩
        obtain ⟨o₂, hstep, hst₂⟩ := Order.step_of_apply h₁ hnew
        obtain ⟨hpend, hwork⟩ := Order.step_replaceAck hk hstep
        exact ⟨hpend, hst.trans (hst₂.trans hwork)⟩
    · exact ⟨o, hj, .inl rfl⟩

/-- A replace request the desk takes, with no id, found the order live and leaves it waiting. -/
theorem applyEventCore_replaceRequest {o' : Order} {t : Bool}
    (h : d.applyEventCore k ⟨.replaceRequest, 0⟩ "" = (.ok (o', t), d')) :
    (∃ o, d.order? k = some o ∧ o.state.live = true) ∧ d'.order? k = some o' ∧ o'.state = .replacePending := by
  obtain ⟨o, o₁, ho, h₁, hst, -⟩ := applyEventCore_ok h
  obtain ⟨o₂, hstep, hst₂⟩ := Order.step_of_apply h₁ (by simp)
  obtain ⟨hlive, hpend⟩ := Order.step_replaceRequest rfl hstep
  refine ⟨⟨o, ho, hlive⟩, ?_, hst.trans (hst₂.trans hpend)⟩
  rw [order?_applyEventCore_ok h, if_pos rfl]

/-! ### The invariant -/

/-- Every entry of the pending-replace table belongs to a tracked order waiting for a replace, and
the table has at most one entry per order. -/
structure PendingReplaces (d : Desk) : Prop where
  once : (d.replacing.map (·.1)).Nodup
  pending : ∀ k q, (k, q) ∈ d.replacing → ∃ o, d.order? k = some o ∧ o.state = .replacePending

/-- A step that keeps every tracked order tracked with its total keeps the total of an order
tracked on both sides. -/
theorem totalQty_eq_of_totals
    (htot : ∀ j o, d.order? j = some o → ∃ o', d'.order? j = some o' ∧ o'.totalQty = o.totalQty)
    {o o' : Order} (ho : d.order? k = some o) (ho' : d'.order? k = some o') : o'.totalQty = o.totalQty := by
  obtain ⟨o'', ho'', h⟩ := htot k o ho
  rw [ho'] at ho''
  cases ho''
  exact h

theorem PendingReplaces.of_empty (h : d.replacing = []) : d.PendingReplaces where
  once := by rw [h]; exact List.nodup_nil
  pending := fun k q hq => by rw [h] at hq; cases hq

/-- An event keeps the invariant: an entry that survives it belongs to an order the event left
waiting, since an answer or a terminal state drops it. -/
theorem PendingReplaces.applyEventCore {r : Except Fault (Order × Bool)} (h : d.PendingReplaces)
    (he : d.applyEventCore k ev eventId = (r, d')) : d'.PendingReplaces := by
  cases r with
  | error f =>
    obtain ⟨-, hord, hrep⟩ := applyEventCore_error he
    refine ⟨by rw [hrep]; exact h.once, fun j q hq => ?_⟩
    rw [order?_congr hord]
    exact h.pending j q (hrep ▸ hq)
  | ok p =>
    obtain ⟨o', t⟩ := p
    obtain ⟨o, o₁, ho, h₁, hst, -, -, ht, -⟩ := applyEventCore_ok he
    have hrep := (applyEventCore_ok_replacing he ho h₁).2.2
    constructor
    · rw [hrep]
      split
      · exact h.once.sublist (List.filter_sublist.map _)
      · exact h.once
    · intro j q hjq
      obtain ⟨oj, hoj, hpend⟩ := h.pending j q (replacing_applyEventCore he _ hjq)
      rw [order?_applyEventCore_ok he]
      split
      · -- the event's own order kept its entry, so the event neither answered a replace nor
        -- made the order terminal
        rename_i hkj
        subst hkj
        rw [ho] at hoj
        cases hoj
        rw [hrep] at hjq
        split at hjq
        · simp at hjq
        · rename_i hkeep
          simp only [not_or] at hkeep
          obtain ⟨⟨hack, hrej⟩, htf⟩ := hkeep
          refine ⟨o', rfl, ?_⟩
          rcases Order.state_apply_of_replacePending hpend h₁ hack hrej with hp | hterm
          · exact hst.trans hp
          · exact absurd (by rw [ht, hst, hterm, hpend]; rfl) htf
      · exact ⟨oj, hoj, hpend⟩

/-- Recording a quantity for an order waiting for a replace keeps the invariant: the entry takes
the place of any earlier one of the order. -/
theorem PendingReplaces.record (h : d.PendingReplaces) {o : Order} (ho : d.order? k = some o)
    (hs : o.state = .replacePending) (q : Int64) :
    ({ d with replacing := (k, q) :: d.replacing.filter (·.1 ≠ k) } : Desk).PendingReplaces where
  once := by
    refine List.nodup_cons.2 ⟨?_, h.once.sublist (List.filter_sublist.map _)⟩
    simp
  pending := fun j q' hq => by
    rcases List.mem_cons.1 hq with he | he
    · cases he
      exact ⟨o, ho, hs⟩
    · exact h.pending j q' (List.mem_filter.1 he).1

/-! ### Steps that write no entry -/

/-- What a step of the desk keeps of its replaces when it is neither an order event nor a replace
call: it writes no entry of the pending-replace table, keeps every tracked order tracked with its
total quantity, and keeps the invariant. -/
structure Evolves (d d' : Desk) : Prop where
  entries : ∀ e ∈ d'.replacing, e ∈ d.replacing
  totals : ∀ k o, d.order? k = some o → ∃ o', d'.order? k = some o' ∧ o'.totalQty = o.totalQty
  pending : d.PendingReplaces → d'.PendingReplaces

namespace Evolves

theorem refl (d : Desk) : Evolves d d := ⟨fun _ he => he, fun _ o ho => ⟨o, ho, rfl⟩, id⟩

theorem trans (h₁ : Evolves d d') (h₂ : Evolves d' d'') : Evolves d d'' where
  entries := fun e he => h₁.entries e (h₂.entries e he)
  totals := fun k o ho => by
    obtain ⟨o', ho', ht'⟩ := h₁.totals k o ho
    obtain ⟨o'', ho'', ht''⟩ := h₂.totals k o' ho'
    exact ⟨o'', ho'', ht''.trans ht'⟩
  pending := h₂.pending ∘ h₁.pending

theorem of_desk_eq (h : d' = d) : Evolves d d' := h ▸ refl d

/-- A step that keeps the table and every tracked order, and may track more. -/
theorem of_grows (hrep : d'.replacing = d.replacing) (hord : ∀ k o, d.order? k = some o → d'.order? k = some o) :
    Evolves d d' where
  entries := fun e he => hrep ▸ he
  totals := fun k o ho => ⟨o, hord k o ho, rfl⟩
  pending := fun h => ⟨by rw [hrep]; exact h.once, fun k q hq =>
    (h.pending k q (hrep ▸ hq)).imp fun o ho => ⟨hord k o ho.1, ho.2⟩⟩

theorem of_eq (hord : d'.orders = d.orders) (hrep : d'.replacing = d.replacing) : Evolves d d' :=
  of_grows hrep fun k _ ho => (order?_congr hord k).trans ho

/-- An order event that is no replace acknowledgement. -/
theorem applyEventCore {r : Except Fault (Order × Bool)} (hk : ev.kind ≠ .replaceAck)
    (he : d.applyEventCore k ev eventId = (r, d')) : Evolves d d' where
  entries := replacing_applyEventCore he
  totals := fun j o hj => by
    obtain ⟨o', ho', htot | ⟨-, hack, -⟩⟩ := totals_applyEventCore he hj
    · exact ⟨o', ho', htot⟩
    · exact absurd hack hk
  pending := fun h => h.applyEventCore he

end Evolves

/-- What a replace call for order `k` with quantity `q` keeps: as `Evolves`, but it may write the
entry `(k, q)`, in a step that makes the order wait for the answer from a live state. -/
structure Replaces (d d' : Desk) (k : String) (q : Int64) : Prop where
  entries : ∀ e ∈ d'.replacing, e ∈ d.replacing ∨
    (e = (k, q) ∧ (∃ o, d.order? k = some o ∧ o.state.live = true) ∧
      ∃ o', d'.order? k = some o' ∧ o'.state = .replacePending)
  totals : ∀ j o, d.order? j = some o → ∃ o', d'.order? j = some o' ∧ o'.totalQty = o.totalQty
  pending : d.PendingReplaces → d'.PendingReplaces

theorem Evolves.replaces (h : Evolves d d') (q : Int64) : Replaces d d' k q :=
  ⟨fun e he => .inl (h.entries e he), h.totals, h.pending⟩

/-- Recording the quantity of a replace whose request made a live order wait. -/
theorem Evolves.record (h : Evolves d d') {o o' : Order} (ho : d.order? k = some o) (hlive : o.state.live = true)
    (ho' : d'.order? k = some o') (hs : o'.state = .replacePending) (q : Int64) :
    Replaces d { d' with replacing := (k, q) :: d'.replacing.filter (·.1 ≠ k) } k q where
  entries := fun e he => by
    rcases List.mem_cons.1 he with rfl | he
    · exact .inr ⟨rfl, ⟨o, ho, hlive⟩, o', ho', hs⟩
    · exact .inl (h.entries e (List.mem_filter.1 he).1)
  totals := h.totals
  pending := fun hp => (h.pending hp).record ho' hs q

end Desk

/-! ### Taking in fills -/

/-- A reflexive and transitive relation between desks that holds across a change of the books
that keeps the orders, the id map and the pending replaces, and across a fill event given to an
order. Taking in fills, disarming, and the replay of a restart are made of these steps. -/
structure FillFrame (R : Desk → Desk → Prop) : Prop where
  refl : ∀ d, R d d
  trans : ∀ {d d' d''}, R d d' → R d' d'' → R d d''
  books : ∀ {d d' : Desk}, d'.orders = d.orders → d'.ids = d.ids → d'.replacing = d.replacing → R d d'
  fill : ∀ {d d' : Desk} (f : BrokerFill) {r : Except Fault (Order × Bool)},
    d.applyEventCore f.orderId f.event f.messageId = (r, d') → R d d'

namespace FillFrame

variable {R : Desk → Desk → Prop} (hR : FillFrame R)
include hR

theorem feedFills (fs : List BrokerFill) : ∀ d : Desk, R d (d.feedFills fs).2 := by
  induction fs with
  | nil => exact hR.refl
  | cons f rest ih =>
    intro d
    unfold Desk.feedFills
    split
    · exact ih d
    · generalize hA : d.applyEventCore f.orderId f.event f.messageId = A
      obtain ⟨rA, dA⟩ := A
      have h₁ := hR.fill f hA
      cases rA with
      | error e => exact hR.trans h₁ (ih dA)
      | ok p =>
        obtain ⟨o, t⟩ := p
        cases t <;> exact hR.trans h₁ (ih dA)

theorem applyFills (w : World) (fills : List BrokerFill) : R w.1 (TradeDesk.applyFills w fills).2.1 := by
  obtain ⟨d, v⟩ := w
  unfold TradeDesk.applyFills
  dsimp only
  split
  · exact hR.refl d
  · split
    · exact hR.refl d
    · rename_i l _
      have h₁ : R d { d with ledger := l } := hR.books rfl rfl rfl
      have h₂ := hR.feedFills (BrokerFill.sortCanonical fills) { d with ledger := l }
      exact hR.trans (hR.trans h₁ h₂) (hR.books rfl rfl rfl)

theorem disarm (w : World) (reason : String) : R w.1 (TradeDesk.disarm w reason).2.1 := by
  unfold TradeDesk.disarm
  split
  split
  · exact hR.refl _
  · exact hR.books rfl rfl rfl

theorem ingestFills (w : World) (fills : List BrokerFill) : R w.1 (TradeDesk.ingestFills w fills).2.1 := by
  obtain ⟨d, v⟩ := w
  unfold TradeDesk.ingestFills
  split
  · exact hR.refl d
  · dsimp only
    have h₂ := hR.applyFills (d, (v.recordFills d.runId fills).2.2) (v.recordFills d.runId fills).1
    split
    · rename_i n w' heq
      rw [heq] at h₂
      exact h₂
    · rename_i f d' v' heq
      rw [heq] at h₂
      exact hR.trans h₂ (hR.disarm (d', v'.discardAll _) _)

theorem applyInDoubt (fills : List BrokerFill) : ∀ w : World, R w.1 (TradeDesk.applyInDoubt w fills).1 := by
  induction fills with
  | nil => intro w; exact hR.refl w.1
  | cons f rest ih =>
    intro w
    have h₁ := hR.applyFills w [f]
    unfold TradeDesk.applyInDoubt
    split
    · rename_i n w' heq
      rw [heq] at h₁
      exact hR.trans h₁ (ih w')
    · rename_i e d' v' heq
      rw [heq] at h₁
      exact hR.trans h₁ (ih (d', v'.discardAll [f.messageId]))

/-- A restore replays the inbox over the orders it rebuilt from the store. -/
theorem restore (d : Desk) (v : Venue) : R (d.restoreOrders v.store) (TradeDesk.restore (d, v)).2.1 := by
  unfold TradeDesk.restore
  dsimp only
  generalize d.restoreOrders v.store = d₁
  split
  · exact hR.refl d₁
  · rename_i accepted doubt v' heq
    have h₂ := hR.applyFills (d₁, v') accepted
    split
    · rename_i f w' heq'
      rw [heq'] at h₂
      exact h₂
    · rename_i n w' heq'
      rw [heq'] at h₂
      exact hR.trans h₂ (hR.applyInDoubt _ w')

end FillFrame

/-! ### The desk's operations -/

open Desk

/-- Fills are never replace acknowledgements, so taking them in evolves the desk's replaces. -/
theorem fillFrame_evolves : FillFrame Evolves where
  refl := Evolves.refl
  trans := Evolves.trans
  books := fun hord _ hrep => Evolves.of_eq hord hrep
  fill := fun f _ he => Evolves.applyEventCore (by unfold BrokerFill.event; split <;> simp) he

theorem evolves_arm (w : World) : Evolves w.1 (arm w).2.1 := by
  unfold arm
  split
  split
  · exact Evolves.refl _
  · exact Evolves.of_eq rfl rfl

theorem evolves_reconcile (w : World) : Evolves w.1 (reconcile w).2.1 := by
  obtain ⟨d, v⟩ := w
  unfold reconcile
  dsimp only
  split
  · exact Evolves.of_eq rfl rfl
  · split
    · exact Evolves.of_eq rfl rfl
    · have h₁ : Evolves d { d with guard := d.guard.record v.now false } := .of_eq rfl rfl
      exact h₁.trans (fillFrame_evolves.disarm ({ d with guard := d.guard.record v.now false }, v) _)

theorem evolves_cancel (w : World) (orderId : String) : Evolves w.1 (cancel w orderId).2.2.1 := by
  obtain ⟨d, v⟩ := w
  unfold cancel
  dsimp only
  split
  · exact Evolves.refl d
  · split
    · exact Evolves.refl d
    · split
      · exact Evolves.refl d
      · rename_i ack v' heq
        generalize hA : d.applyEventCore orderId ⟨.cancelRequest, 0⟩ "" = A
        obtain ⟨rA, dA⟩ := A
        have hdA : Evolves d dA := Evolves.applyEventCore (by decide) hA
        cases rA with
        | error f => exact hdA
        | ok p =>
          by_cases hc : ack.status = "canceled"
          · simp only [hc, if_true]
            generalize hB : dA.applyEventCore orderId ⟨.cancelAck, 0⟩ ("cancel-ack-" ++ ack.brokerId) = B
            obtain ⟨rB, dB⟩ := B
            have hdB := hdA.trans (Evolves.applyEventCore (by decide) hB)
            cases rB with
            | error f => exact hdB
            | ok q => exact hdB
          · simp only [hc, if_false]
            exact hdA

/-- A replace call writes at most its own entry, with its quantity, when the broker accepted it
and the order took the request. -/
theorem replaces_replace (w : World) (orderId : String) (qty : Int64) (limit : Option Int64) (tif : String) :
    Replaces w.1 (replace w orderId qty limit tif).2.2.1 orderId qty := by
  obtain ⟨d, v⟩ := w
  unfold replace
  dsimp only
  split
  · exact (Evolves.refl d).replaces qty
  · split
    · exact (Evolves.refl d).replaces qty
    · split
      · exact (Evolves.refl d).replaces qty
      · have hrecord : ∀ d₁ : Desk, d₁.orders = d.orders → d₁.replacing = d.replacing → ∀ r d₂,
            d₁.applyEventCore orderId ⟨.replaceRequest, 0⟩ "" = (r, d₂) →
              Evolves d d₂ ∧ ∀ o' t, r = .ok (o', t) →
                Replaces d { d₂ with replacing := (orderId, qty) :: d₂.replacing.filter (·.1 ≠ orderId) } orderId qty := by
          intro d₁ hord hrep r d₂ hA
          have h₁ : Evolves d d₂ := (Evolves.of_eq hord hrep).trans (Evolves.applyEventCore (by decide) hA)
          refine ⟨h₁, fun o' t hr => ?_⟩
          subst hr
          obtain ⟨⟨o, ho, hlive⟩, ho', hs⟩ := applyEventCore_replaceRequest hA
          exact h₁.record ((order?_congr hord orderId).symm.trans ho) hlive ho' hs qty
        split
        · next _ d₂ hA =>
          exact (hrecord _ (by split <;> rfl) (by split <;> rfl) _ _ hA).2 _ _ rfl
        · next f d₂ hA =>
          exact (hrecord _ (by split <;> rfl) (by split <;> rfl) _ _ hA).1.replaces qty

theorem applyEvent_desk (w : World) (orderId : String) (ev : Event) (eventId : String) :
    (applyEvent w orderId ev eventId).2.1 = (w.1.applyEventCore orderId ev eventId).2 := by
  obtain ⟨d, v⟩ := w
  unfold applyEvent
  dsimp only
  split
  · next f d₁ heq => rw [heq]
  · next o t d₁ heq => rw [heq]

/-! ### The passes and restarts -/

/-- Reporting a submission only starts tracking an order. -/
theorem evolves_onSubmitted (intent : Intent) (ack : BrokerAck) (w : World) : Evolves w.1 (onSubmitted intent ack w).2.1 := by
  unfold onSubmitted
  dsimp only
  split
  · exact Evolves.of_eq rfl rfl
  · rename_i hnew
    refine Evolves.of_grows rfl fun k o ho => ?_
    rw [order?_putOrder]
    split
    · rename_i hk
      have hk' : intent.key = k := hk
      rw [hk'] at hnew
      exact absurd (show (w.1.order? k).isSome = true by rw [ho]; rfl) hnew
    · exact ho

theorem passFrame_evolves : PassFrame (fun w w' : World => Evolves w.1 w'.1) onSubmitted where
  refl := fun w => Evolves.refl w.1
  trans := Evolves.trans
  outbox := fun w _ _ => Evolves.refl w.1
  lookup := fun w _ => Evolves.refl w.1
  sink := evolves_onSubmitted

theorem restart_pendingReplaces (c : DeskConfig) (w : World) : (restart c w).2.1.PendingReplaces :=
  (fillFrame_evolves.restore _ w.2).pending (PendingReplaces.of_empty (books_restoreOrders _ _).2.2)

/-! ### Every action -/

/-- Every action but an order event and a replace call evolves the desk's replaces. -/
theorem Action.evolves (a : Action) (w : World) (hev : ∀ k ev eventId, a ≠ .event k ev eventId)
    (hrep : ∀ k q limit tif, a ≠ .replace k q limit tif) : Evolves w.1 (a.apply w).1 := by
  obtain ⟨d, v⟩ := w
  cases a with
  | enqueue i => exact .of_desk_eq (enqueueIntent_cases _ i).1
  | targets ts => exact .of_desk_eq (enqueueAll_keeps _ _).1
  | dispatch claimant batch => exact passFrame_evolves.dispatchOnce (fun w _ _ => .refl w.1) claimant batch _
  | recover => exact passFrame_evolves.recoverRun (fun w _ _ => .refl w.1) _ _
  | sweep ttl => exact passFrame_evolves.sweepStaleClaims _ ttl _
  | execute fills report =>
    cases report
    · exact .refl d
    · exact fillFrame_evolves.ingestFills (d, (v.fillAll fills).2) _
  | ingest fills => exact fillFrame_evolves.ingestFills _ fills
  | event orderId ev eventId => exact absurd rfl (hev orderId ev eventId)
  | cancel orderId => exact evolves_cancel _ orderId
  | replace orderId qty limit tif => exact absurd rfl (hrep orderId qty limit tif)
  | marks m => exact .of_eq rfl rfl
  | arm => exact evolves_arm _
  | disarm reason => exact fillFrame_evolves.disarm _ reason
  | reconcile => exact evolves_reconcile _
  | recordReconcile clean => exact .of_eq rfl rfl
  | advance ns => exact .refl d
  | block reason => exact .of_eq rfl rfl
  | unblock => exact .of_eq rfl rfl
  | failNext message => exact .refl d
  | lookupFail count => exact .refl d

/-- What an action does to the desk's replaces: it evolves them, or it is an order event, or it is
a replace call. -/
theorem Action.replacing_cases (a : Action) (w : World) :
    Evolves w.1 (a.apply w).1 ∨
      (∃ k ev eventId, a = .event k ev eventId ∧ (a.apply w).1 = (w.1.applyEventCore k ev eventId).2) ∨
      ∃ k q limit tif, a = .replace k q limit tif ∧ Replaces w.1 (a.apply w).1 k q := by
  by_cases hev : ∃ k ev eventId, a = .event k ev eventId
  · obtain ⟨k, ev, eventId, rfl⟩ := hev
    exact .inr (.inl ⟨k, ev, eventId, rfl, applyEvent_desk w k ev eventId⟩)
  · by_cases hrep : ∃ k q limit tif, a = .replace k q limit tif
    · obtain ⟨k, q, limit, tif, rfl⟩ := hrep
      exact .inr (.inr ⟨k, q, limit, tif, rfl, replaces_replace w k q limit tif⟩)
    · simp only [not_exists] at hev hrep
      exact .inl (a.evolves w hev hrep)

theorem Action.pendingReplaces (a : Action) {w : World} (h : w.1.PendingReplaces) : (a.apply w).1.PendingReplaces := by
  rcases a.replacing_cases w with hw | ⟨k, ev, eventId, -, hd⟩ | ⟨k, q, limit, tif, -, hr⟩
  · exact hw.pending h
  · rw [hd]
    exact h.applyEventCore Prod.mk.eta.symm
  · exact hr.pending h

theorem Reachable.pendingReplaces {w : World} (hw : Reachable w) : w.1.PendingReplaces := by
  induction hw with
  | start s =>
    refine PendingReplaces.of_empty ?_
    unfold DeskSetup.start
    dsimp only
    split_ifs <;> rfl
  | step a _ ih => exact a.pendingReplaces ih
  | restart c _ ih => exact restart_pendingReplaces c _

/-- **Pending replaces.** In every world a desk can reach, across actions and restarts, the
pending-replace table has at most one entry per order, and each belongs to a tracked order waiting
for a replace. An action changes an order's total quantity only as an order event for it that is a
replace acknowledgement, while the table holds an entry for the order asking for at least what is
filled: the total becomes that quantity, and unless the event repeats an id the order already
took, the order moves from waiting to working. An entry is written only by a replace call for the
order with the call's quantity, in the step where the call makes the order wait from a live
state. -/
theorem replaces_recorded_while_pending {w : World} (hw : Reachable w) :
    ((w.1.replacing.map (·.1)).Nodup ∧
      ∀ k q, (k, q) ∈ w.1.replacing → ∃ o, w.1.order? k = some o ∧ o.state = .replacePending) ∧
    (∀ (a : Action) k o o', w.1.order? k = some o → (a.apply w).1.order? k = some o' → o'.totalQty ≠ o.totalQty →
      ∃ ev eventId, a = .event k ev eventId ∧ ev.kind = .replaceAck ∧
        w.1.replacing.lookup k = some o'.totalQty ∧ o'.filledQty ≤ o'.totalQty ∧
        (¬(eventId ≠ "" ∧ eventId ∈ o.seen) → o.state = .replacePending ∧ o'.state = .working)) ∧
    ∀ (a : Action) k q, (k, q) ∈ (a.apply w).1.replacing → (k, q) ∉ w.1.replacing →
      (∃ limit tif, a = .replace k q limit tif) ∧ (∃ o, w.1.order? k = some o ∧ o.state.live = true) ∧
        ∃ o', (a.apply w).1.order? k = some o' ∧ o'.state = .replacePending := by
  have hp := hw.pendingReplaces
  refine ⟨⟨hp.once, hp.pending⟩, ?_, ?_⟩
  · intro a k o o' ho ho' hne
    rcases a.replacing_cases w with hev | ⟨k', ev, eventId, rfl, hd⟩ | ⟨k', q, limit, tif, -, hr⟩
    · exact absurd (totalQty_eq_of_totals hev.totals ho ho') hne
    · rw [hd] at ho'
      obtain ⟨o'', ho'', htot⟩ := totals_applyEventCore (Prod.mk.eta (p := w.1.applyEventCore k' ev eventId)).symm ho
      rw [ho'] at ho''
      cases ho''
      rcases htot with htot | ⟨rfl, hk, hq, hle, hmove⟩
      · exact absurd htot hne
      · exact ⟨ev, eventId, rfl, hk, hq, hle, hmove⟩
    · exact absurd (totalQty_eq_of_totals hr.totals ho ho') hne
  · intro a k q hnew hold
    rcases a.replacing_cases w with hev | ⟨k', ev, eventId, -, hd⟩ | ⟨k', q', limit, tif, rfl, hr⟩
    · exact absurd (hev.entries _ hnew) hold
    · rw [hd] at hnew
      exact absurd (replacing_applyEventCore Prod.mk.eta.symm _ hnew) hold
    · rcases hr.entries _ hnew with hin | ⟨he, hlive, hwait⟩
      · exact absurd hin hold
      · cases he
        exact ⟨⟨limit, tif, rfl⟩, hlive, hwait⟩

/-- A session that queues an order, dispatches it and asks to replace it for fifteen. -/
theorem replaces_recorded_while_pending_after_replace :
    let c : DeskConfig := { runId := "run", initialCash := 1000, fresh := 0, maxGross := 0, maxPerSymbol := 0 }
    let w := Action.run (DeskSetup.start { config := c, marks := [("ABC", 1)] })
      [.enqueue { key := "k", symbol := "ABC", side := .buy, quantity := 10 }, .dispatch "d" 1, .replace "k" 15 none ""]
    Reachable w ∧
    ((w.1.replacing.map (·.1)).Nodup ∧
      ∀ k q, (k, q) ∈ w.1.replacing → ∃ o, w.1.order? k = some o ∧ o.state = .replacePending) ∧
    (∀ (a : Action) k o o', w.1.order? k = some o → (a.apply w).1.order? k = some o' → o'.totalQty ≠ o.totalQty →
      ∃ ev eventId, a = .event k ev eventId ∧ ev.kind = .replaceAck ∧
        w.1.replacing.lookup k = some o'.totalQty ∧ o'.filledQty ≤ o'.totalQty ∧
        (¬(eventId ≠ "" ∧ eventId ∈ o.seen) → o.state = .replacePending ∧ o'.state = .working)) ∧
    ∀ (a : Action) k q, (k, q) ∈ (a.apply w).1.replacing → (k, q) ∉ w.1.replacing →
      (∃ limit tif, a = .replace k q limit tif) ∧ (∃ o, w.1.order? k = some o ∧ o.state.live = true) ∧
        ∃ o', (a.apply w).1.order? k = some o' ∧ o'.state = .replacePending := by
  intro c w
  have hw : Reachable w := (Reachable.start _).run _
  exact ⟨hw, replaces_recorded_while_pending hw⟩

/-- The table and the order's state part ways. A replace request that reaches the desk as a
broker event leaves the order waiting with no entry. A replace acknowledgement under an id the
order already took, delivered again while the order waits for a second replace, sets the total
to the second replace's quantity and drops its entry, and the order still waits. -/
theorem replacePending_without_entry :
    let c : DeskConfig := { runId := "run", initialCash := 1000, fresh := 0, maxGross := 0, maxPerSymbol := 0 }
    let s : DeskSetup := { config := c, marks := [("ABC", 1)] }
    let buy : Intent := { key := "k", symbol := "ABC", side := .buy, quantity := 10 }
    let byEvent := Action.run s.start [.enqueue buy, .dispatch "d" 1, .event "k" ⟨.replaceRequest, 0⟩ ""]
    let acked := Action.run s.start [.enqueue buy, .dispatch "d" 1, .replace "k" 15 none "",
      .event "k" ⟨.replaceAck, 0⟩ "r"]
    let redelivered := Action.run acked [.replace "k" 20 none "", .event "k" ⟨.replaceAck, 0⟩ "r"]
    ((byEvent.1.order? "k").map (·.state) = some .replacePending ∧ byEvent.1.replacing.lookup "k" = none) ∧
    (acked.1.order? "k").map (fun o => (o.state, o.totalQty)) = some (.working, 15) ∧
    (redelivered.1.order? "k").map (fun o => (o.state, o.totalQty)) = some (.replacePending, 20) ∧
    redelivered.1.replacing.lookup "k" = none := by
  decide +kernel

end TradeDesk
