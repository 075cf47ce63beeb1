import TradeDesk.Proofs.Broker.Orders
import TradeDesk.Saturating
/-!
# Runs of the paper broker

A run drives the paper broker through calls (`Paper.Call`): submits, cancels and replaces with
whatever token they carry, executions with any arguments, injected failures and lookups. Each
call keeps the orders and the issued ids, opens one order under a client id the book did not
know with the next issued id, or rewrites one open order (`Paper.Effect`, `Paper.Call.effect`).

From an empty book every run keeps (`Paper.runCalls_keeps_book`):

* one order per client id and one per broker id, so both indexes find every order under its own
  ids (`Paper.Sound`);
* a submit under a client id the book holds changes no order and issues no id;
* an order is filled exactly when some execution of the run completed it, and then it has filled
  its quantity (`Paper.completed_runCalls`).

Executions compare the quantity with the sum of what is filled and what is executed as words, so
a large execution wraps that sum around and passes the check (`Paper.fill_wraps_past_quantity`).
While no execution makes the sum leave the range of words (`Paper.FillsFit`), nothing negative is
ever filled and an order that has filled something has filled no more than its quantity
(`Paper.Bounded`). Submits take any quantity and a replace may bring the quantity down to what is
filled, so an open order need not have anything left: an open order takes the rest of its
quantity, completing it, exactly when it has filled less than its quantity, and refuses every
execution otherwise.
-/

namespace TradeDesk

/-- An order after an execution of `qty`: closed as filled once what is filled reaches its
quantity. -/
def PaperOrder.fillBy (p : PaperOrder) (qty : Int64) : PaperOrder :=
  { p with filled := p.filled + qty, status := if p.filled + qty = p.request.quantity then .filled else p.status }

/-- An order has filled nothing negative, and no more than its quantity once it has filled
something. -/
def PaperOrder.Bounded (p : PaperOrder) : Prop := 0 ≤ p.filled ∧ (p.filled = 0 ∨ p.filled ≤ p.request.quantity)

theorem PaperOrder.status_of_isOpen {p : PaperOrder} (h : p.isOpen) : p.status = .new := by
  simpa [PaperOrder.isOpen] using h

theorem PaperOrder.fillBy_status {p : PaperOrder} (h : p.isOpen) (qty : Int64) :
    (p.fillBy qty).status = .filled ↔ p.filled + qty = p.request.quantity := by
  by_cases hq : p.filled + qty = p.request.quantity <;> simp [fillBy, hq, status_of_isOpen h]

namespace Paper

/-! ### Calls -/

/-- One call to the paper broker. -/
inductive Call where
  | submit (now : Instant) (tok : InvokeToken) (req : Intent)
  | cancel (now : Instant) (tok : InvokeToken) (brokerId : String)
  | replace (now : Instant) (tok : InvokeToken) (brokerId : String) (qty : Int64) (limit : Option Int64) (tif : String)
  /-- An execution at the broker of an order known by its client id. -/
  | fill (clientId : String) (qty price fee : Int64)
  /-- The broker refuses its next mutating call with a message. -/
  | failNext (message : String)
  | lookup (clientId : String)
  /-- The broker fails its next lookups. -/
  | failLookups (count : Nat)
  deriving Repr, Inhabited

/-- The book and the id source after a call; what the call answers is left out. -/
def Call.apply : Call → Paper × IdSource → Paper × IdSource
  | .submit now tok req, s => (s.1.submit s.2 now tok req).2
  | .cancel now tok id, s => ((s.1.cancel now tok id).2, s.2)
  | .replace now tok id qty limit tif, s => ((s.1.replace now tok id qty limit tif).2, s.2)
  | .fill k qty price fee, s => ((s.1.fill k qty price fee).2, s.2)
  | .failNext message, s => (s.1.failNextWith message, s.2)
  | .lookup k, s => ((s.1.lookup k).2, s.2)
  | .failLookups count, s => ({ s.1 with lookupOutages := count }, s.2)

/-- The book and the id source after calls, in order. -/
def runCalls (s : Paper × IdSource) (calls : List Call) : Paper × IdSource :=
  calls.foldl (fun s c => c.apply s) s

@[simp] theorem runCalls_nil (s : Paper × IdSource) : runCalls s [] = s := rfl

@[simp] theorem runCalls_cons (s : Paper × IdSource) (c : Call) (calls : List Call) :
    runCalls s (c :: calls) = runCalls (c.apply s) calls := rfl

/-! ### What each call does -/

/-- A submit under a client id the book holds changes no order and issues no id. -/
theorem submit_known {b : Paper} {req : Intent} (hk : b.Knows req.key) (ids : IdSource) (now : Instant)
    (tok : InvokeToken) : (b.submit ids now tok req).2.1.orders = b.orders ∧ (b.submit ids now tok req).2.2 = ids := by
  unfold submit
  split
  · exact ⟨rfl, rfl⟩
  · split
    · rename_i f b' h
      exact ⟨(keeps_of_takeFailure h).1, rfl⟩
    · rename_i b' h
      obtain rfl := eq_of_takeFailure h
      dsimp only
      split
      · exact ⟨rfl, rfl⟩
      · rename_i hc
        exact absurd hk (byClient?_eq_none_iff.1 hc)

/-- A replace either changes no order, or sets the quantity of the open order of the broker id to
one not below what it has filled, with the limit and, when one is given, the time in force. -/
theorem replace_edits (b : Paper) (now : Instant) (tok : InvokeToken) (id : String) (qty : Int64)
    (limit : Option Int64) (tif : String) :
    (b.replace now tok id qty limit tif).2.orders = b.orders ∨
      ∃ p, b.byBroker? id = some p ∧ p.isOpen ∧ ¬ qty < p.filled ∧
        (b.replace now tok id qty limit tif).2 = b.replaceOrder { p with request := { p.request with
          quantity := qty, limit, timeInForce := if tif = "" then p.request.timeInForce else tif } } := by
  unfold replace
  split
  · exact .inl rfl
  · split
    · rename_i f b' h
      exact .inl (keeps_of_takeFailure h).1
    · rename_i b' h
      obtain rfl := eq_of_takeFailure h
      split
      · exact .inl rfl
      · rename_i p hp
        obtain ⟨hb, ho⟩ := openOrder_ok hp
        split
        · exact .inl rfl
        · rename_i hle
          exact .inr ⟨p, hb, ho, hle, rfl⟩

/-- An execution of a positive quantity of an open order that does not take it past its quantity
fills it and reports it, finally exactly when it completes the order. -/
theorem fill_of_open {b : Paper} {k : String} {p : PaperOrder} {qty : Int64} (price fee : Int64)
    (hp : b.byClient? k = some p) (ho : p.isOpen) (hpos : 0 < qty) (hle : ¬ p.request.quantity < p.filled + qty) :
    ∃ r : BrokerFill, b.fill k qty price fee = (.ok r, { b.replaceOrder (p.fillBy qty) with fillSeq := b.fillSeq + 1 }) ∧
      (r.final = true ↔ p.filled + qty = p.request.quantity) := by
  have hguard : ¬ (qty ≤ 0 ∨ p.request.quantity < p.filled + qty) :=
    fun h => h.elim (fun h' => absurd hpos (Int64.not_lt.2 h')) hle
  unfold fill
  rw [hp]
  dsimp only
  rw [if_neg (by simpa using ho), if_neg hguard]
  exact ⟨_, rfl, by simp⟩

/-- Every other execution is refused and changes nothing. -/
theorem fill_refused {b : Paper} {k : String} {qty : Int64} (price fee : Int64)
    (h : ∀ p ∈ b.byClient? k, ¬ (p.isOpen ∧ 0 < qty ∧ ¬ p.request.quantity < p.filled + qty)) :
    ∃ f, b.fill k qty price fee = (.error f, b) := by
  unfold fill
  split
  · exact ⟨_, rfl⟩
  · rename_i p hp
    have hp' := h p hp
    split
    · exact ⟨_, rfl⟩
    · rename_i ho
      split
      · exact ⟨_, rfl⟩
      · rename_i hguard
        exact absurd ⟨by simpa using ho, Int64.not_le.1 (not_or.1 hguard).1, (not_or.1 hguard).2⟩ hp'

/-! ### Completing an order -/

/-- A call that completes the open order of a client id: an execution of a positive quantity that
brings what the order has filled up to its quantity. -/
def Completes (b : Paper) (k : String) : Call → Prop
  | .fill k' qty _ _ => k' = k ∧ ∃ p ∈ b.byClient? k, p.isOpen ∧ 0 < qty ∧ p.filled + qty = p.request.quantity
  | _ => False

/-- A call completes an order exactly when it is an execution the broker reports as final. -/
theorem completes_iff_final {b : Paper} {k : String} {c : Call} :
    Completes b k c ↔
      ∃ qty price fee r, c = .fill k qty price fee ∧ (b.fill k qty price fee).1 = .ok r ∧ r.final = true := by
  constructor
  · intro h
    cases c with
    | fill k' qty price fee =>
      obtain ⟨rfl, p, hp, ho, hpos, heq⟩ := h
      have hle : ¬ p.request.quantity < p.filled + qty := by rw [heq]; exact Int64.lt_irrefl
      obtain ⟨r, hr, hfinal⟩ := fill_of_open price fee hp ho hpos hle
      exact ⟨qty, price, fee, r, rfl, by rw [hr], hfinal.2 heq⟩
    | _ => exact h.elim
  · rintro ⟨qty, price, fee, r, rfl, hr, hfinal⟩
    -- a report comes only from an open order that the execution does not take past its quantity
    by_cases hpass : ∃ p ∈ b.byClient? k, p.isOpen ∧ 0 < qty ∧ ¬ p.request.quantity < p.filled + qty
    · obtain ⟨p, hp, ho, hpos, hle⟩ := hpass
      obtain ⟨r', hr', hfinal'⟩ := fill_of_open price fee hp ho hpos hle
      rw [hr'] at hr
      cases hr
      exact ⟨rfl, p, hp, ho, hpos, hfinal'.1 hfinal⟩
    · obtain ⟨f, hf⟩ := fill_refused price fee (fun p hp hq => hpass ⟨p, hp, hq⟩)
      rw [hf] at hr
      cases hr

/-! ### What a call does to the orders -/

/-- What a call does to the orders and the issued ids: it keeps them, opens an order under a client
id the book does not know with the next issued id, or rewrites one open order. -/
inductive Effect (b : Paper) (ids : IdSource) : Call → Paper × IdSource → Prop
  /-- The call is refused, or changes no order; it completes none. -/
  | keeps {c s} (ho : s.1.orders = b.orders) (hi : s.2 = ids) (hc : ∀ k, ¬ Completes b k c) : Effect b ids c s
  | opens {now tok req s} (hn : ¬ b.Knows req.key)
      (ho : s.1.orders = b.orders ++ [{ brokerId := Uuid.serial (ids.issued + 1), clientId := req.key, request := req }])
      (hi : s.2 = ⟨ids.issued + 1⟩) : Effect b ids (.submit now tok req) s
  | cancels {now tok p s} (hp : b.byBroker? p.brokerId = some p) (ho : p.isOpen)
      (hs : s.1.orders = (b.replaceOrder { p with status := .canceled }).orders) (hi : s.2 = ids) :
      Effect b ids (.cancel now tok p.brokerId) s
  | replaces {now tok p qty limit tif s} (hp : b.byBroker? p.brokerId = some p) (ho : p.isOpen) (hle : ¬ qty < p.filled)
      (hs : s.1.orders = (b.replaceOrder { p with request := { p.request with
        quantity := qty, limit, timeInForce := if tif = "" then p.request.timeInForce else tif } }).orders)
      (hi : s.2 = ids) : Effect b ids (.replace now tok p.brokerId qty limit tif) s
  | fills {p qty price fee s} (hp : b.byClient? p.clientId = some p) (ho : p.isOpen) (hpos : 0 < qty)
      (hle : ¬ p.request.quantity < p.filled + qty) (hs : s.1.orders = (b.replaceOrder (p.fillBy qty)).orders)
      (hi : s.2 = ids) : Effect b ids (.fill p.clientId qty price fee) s

/-- **What a call can do.** -/
theorem Call.effect (c : Call) (s : Paper × IdSource) : Effect s.1 s.2 c (c.apply s) := by
  cases c with
  | submit now tok req =>
    by_cases hk : s.1.Knows req.key
    · obtain ⟨ho, hi⟩ := submit_known hk s.2 now tok
      exact .keeps ho hi fun _ h => h
    · obtain ⟨-, ⟨-, ho, hi⟩ | ⟨-, ho, hi⟩⟩ := s.1.submit_cases s.2 now tok req hk
      · exact .keeps ho hi fun _ h => h
      · exact .opens hk ho hi
  | cancel now tok id =>
    obtain ⟨-, ⟨ho, -⟩ | ⟨p, hp, hopen, -, hs⟩⟩ := s.1.cancel_cases now tok id
    · exact .keeps ho rfl fun _ h => h
    · obtain rfl := (mem_of_byBroker? hp).2
      exact .cancels hp hopen (congrArg Paper.orders hs) rfl
  | replace now tok id qty limit tif =>
    rcases s.1.replace_edits now tok id qty limit tif with ho | ⟨p, hp, hopen, hle, hs⟩
    · exact .keeps ho rfl fun _ h => h
    · obtain rfl := (mem_of_byBroker? hp).2
      exact .replaces hp hopen hle (congrArg Paper.orders hs) rfl
  | fill k qty price fee =>
    by_cases hpass : ∃ p, s.1.byClient? k = some p ∧ p.isOpen ∧ 0 < qty ∧ ¬ p.request.quantity < p.filled + qty
    · obtain ⟨p, hp, hopen, hpos, hle⟩ := hpass
      obtain ⟨r, hr, -⟩ := fill_of_open price fee hp hopen hpos hle
      obtain rfl := (mem_of_byClient? hp).2
      exact .fills hp hopen hpos hle (by rw [Call.apply, hr]) rfl
    · obtain ⟨f, hf⟩ := fill_refused price fee (fun p hp hq => hpass ⟨p, hp, hq⟩)
      refine .keeps (by rw [Call.apply, hf]) rfl fun k' hc => ?_
      obtain ⟨rfl, p, hp, hopen, hpos, heq⟩ := hc
      exact hpass ⟨p, hp, hopen, hpos, by rw [heq]; exact Int64.lt_irrefl⟩
  | failNext message => exact .keeps rfl rfl fun _ h => h
  | lookup k => exact .keeps (s.1.lookup_keeps k).1 rfl fun _ h => h
  | failLookups count => exact .keeps rfl rfl fun _ h => h

/-- Some order under the client id is filled. -/
def Completed (b : Paper) (k : String) : Prop := ∃ p ∈ b.orders, p.clientId = k ∧ p.status = .filled

theorem completed_congr {b b' : Paper} (ho : b'.orders = b.orders) (k : String) : b'.Completed k ↔ b.Completed k := by
  rw [Completed, Completed, ho]

/-- Rewriting an order that is not filled adds its client id to those completed exactly when the
new order is filled. -/
theorem completed_replaceOrder {b : Paper} {p q : PaperOrder} (hd : b.Distinct) (hp : p ∈ b.orders)
    (hq : Rewrites p q) (hnf : p.status ≠ .filled) (k : String) :
    (b.replaceOrder q).Completed k ↔ b.Completed k ∨ (p.clientId = k ∧ q.status = .filled) := by
  unfold Completed
  rw [orders_replaceOrder hd hp hq]
  constructor
  · rintro ⟨x, hx, hk, hs⟩
    obtain ⟨y, hy, rfl⟩ := List.mem_map.1 hx
    by_cases hyp : y = p
    · rw [if_pos hyp] at hk hs
      exact .inr ⟨hq.clientId ▸ hk, hs⟩
    · rw [if_neg hyp] at hk hs
      exact .inl ⟨y, hy, hk, hs⟩
  · rintro (⟨y, hy, hk, hs⟩ | ⟨hk, hs⟩)
    · have hyp : y ≠ p := fun he => hnf (he ▸ hs)
      exact ⟨y, List.mem_map.2 ⟨y, hy, if_neg hyp⟩, hk, hs⟩
    · exact ⟨q, List.mem_map.2 ⟨p, hp, if_pos rfl⟩, hq.clientId.trans hk, hs⟩

/-! ### One order per id -/

/-- What every book reached from an empty one keeps: one order per client id and per broker id,
each under an id issued so far, and a filled order has filled its quantity. -/
structure Sound (s : Paper × IdSource) : Prop where
  distinct : s.1.Distinct
  issued : ∀ p ∈ s.1.orders, ∃ n, n ≤ s.2.issued ∧ p.brokerId = Uuid.serial n
  filled : ∀ p ∈ s.1.orders, p.status = .filled → p.filled = p.request.quantity

theorem sound_empty (ids : IdSource) : Sound ({}, ids) where
  distinct := ⟨List.nodup_nil, List.nodup_nil⟩
  issued := fun _ hp => absurd hp List.not_mem_nil
  filled := fun _ hp => absurd hp List.not_mem_nil

namespace Sound

variable {s : Paper × IdSource} (h : Sound s)
include h

theorem keeps {s' : Paper × IdSource} (ho : s'.1.orders = s.1.orders) (hi : s'.2 = s.2) : Sound s' where
  distinct := ⟨by rw [ho]; exact h.distinct.clients, by rw [ho]; exact h.distinct.brokers⟩
  issued := fun p hp => hi ▸ h.issued p (ho ▸ hp)
  filled := fun p hp => h.filled p (ho ▸ hp)

theorem opened {s' : Paper × IdSource} {req : Intent} (hn : ¬ s.1.Knows req.key)
    (ho : s'.1.orders = s.1.orders ++ [{ brokerId := Uuid.serial (s.2.issued + 1), clientId := req.key, request := req }])
    (hi : s'.2 = ⟨s.2.issued + 1⟩) : Sound s' where
  distinct := h.distinct.opened ho hn (fresh_serial h.issued)
  issued := fun x hx => by
    rw [ho, List.mem_append, List.mem_singleton] at hx
    rw [hi]
    rcases hx with hx | rfl
    · obtain ⟨n, hn, he⟩ := h.issued x hx
      exact ⟨n, Nat.le_succ_of_le hn, he⟩
    · exact ⟨s.2.issued + 1, Nat.le_refl _, rfl⟩
  filled := fun x hx hf => by
    rw [ho, List.mem_append, List.mem_singleton] at hx
    rcases hx with hx | rfl
    · exact h.filled x hx hf
    · cases hf

theorem rewrote {s' : Paper × IdSource} {p q : PaperOrder} (hp : p ∈ s.1.orders)
    (ho : s'.1.orders = (s.1.replaceOrder q).orders) (hi : s'.2 = s.2) (hq : Rewrites p q)
    (hf : q.status = .filled → q.filled = q.request.quantity) : Sound s' where
  distinct := by
    have hd := distinct_replaceOrder h.distinct hp hq
    exact ⟨by rw [ho]; exact hd.clients, by rw [ho]; exact hd.brokers⟩
  issued := fun x hx => by
    rw [hi]
    rcases mem_replaceOrder h.distinct hp hq (ho ▸ hx) with rfl | hx
    · obtain ⟨n, hn, he⟩ := h.issued p hp
      exact ⟨n, hn, hq.brokerId.trans he⟩
    · exact h.issued x hx
  filled := fun x hx => by
    rcases mem_replaceOrder h.distinct hp hq (ho ▸ hx) with rfl | hx
    · exact hf
    · exact h.filled x hx

theorem effect {c : Call} {s' : Paper × IdSource} (he : Effect s.1 s.2 c s') : Sound s' := by
  cases he with
  | keeps ho hi _ => exact h.keeps ho hi
  | opens hn ho hi => exact h.opened hn ho hi
  | cancels hp _ hs hi => exact h.rewrote (mem_of_byBroker? hp).1 hs hi ⟨rfl, rfl, rfl, rfl⟩ fun hc => by cases hc
  | replaces hp hopen _ hs hi =>
    refine h.rewrote (mem_of_byBroker? hp).1 hs hi ⟨rfl, rfl, rfl, rfl⟩ fun hc => ?_
    simp [PaperOrder.status_of_isOpen hopen] at hc
  | fills hp hopen _ _ hs hi =>
    exact h.rewrote (mem_of_byClient? hp).1 hs hi ⟨rfl, rfl, rfl, rfl⟩ (PaperOrder.fillBy_status hopen _).1

theorem apply (c : Call) : Sound (c.apply s) := h.effect (c.effect s)

/-- A call completes the client ids it completes and keeps those completed before. -/
theorem completed_effect {c : Call} {s' : Paper × IdSource} (he : Effect s.1 s.2 c s') (k : String) :
    s'.1.Completed k ↔ s.1.Completed k ∨ Completes s.1 k c := by
  cases he with
  | keeps ho _ hc => rw [completed_congr ho, iff_false_intro (hc k), or_false]
  | opens _ ho _ =>
    rw [Completed, Completed, ho]
    simp [Completes]
  | cancels hp hopen hs _ =>
    rw [completed_congr hs, completed_replaceOrder h.distinct (mem_of_byBroker? hp).1 ?_
      (by simp [PaperOrder.status_of_isOpen hopen])]
    · simp [Completes]
    · exact ⟨rfl, rfl, rfl, rfl⟩
  | replaces hp hopen _ hs _ =>
    rw [completed_congr hs, completed_replaceOrder h.distinct (mem_of_byBroker? hp).1 ?_
      (by simp [PaperOrder.status_of_isOpen hopen])]
    · simp [Completes, PaperOrder.status_of_isOpen hopen]
    · exact ⟨rfl, rfl, rfl, rfl⟩
  | @fills p qty price fee _ hp hopen hpos _ hs _ =>
    rw [completed_congr hs, completed_replaceOrder h.distinct (mem_of_byClient? hp).1 ?_
      (by simp [PaperOrder.status_of_isOpen hopen]), PaperOrder.fillBy_status hopen]
    swap
    · exact ⟨rfl, rfl, rfl, rfl⟩
    refine or_congr_right ⟨fun ⟨hk, heq⟩ => ⟨hk, p, hk ▸ hp, hopen, hpos, heq⟩, ?_⟩
    rintro ⟨rfl, p', hp', -, -, heq⟩
    rw [hp] at hp'
    cases hp'
    exact ⟨rfl, heq⟩

end Sound

theorem Sound.run {s : Paper × IdSource} (h : Sound s) (calls : List Call) : Sound (runCalls s calls) := by
  induction calls generalizing s with
  | nil => exact h
  | cons c calls ih => exact ih (h.apply c)

theorem exists_split_cons {α : Type} {P : List α → α → Prop} {x : α} {xs : List α} :
    (∃ pre c post, x :: xs = pre ++ c :: post ∧ P pre c) ↔
      P [] x ∨ ∃ pre c post, xs = pre ++ c :: post ∧ P (x :: pre) c := by
  constructor
  · rintro ⟨pre, c, post, hsplit, hp⟩
    rcases List.cons_eq_append_iff.1 hsplit with ⟨rfl, he⟩ | ⟨pre', rfl, hxs⟩
    · obtain ⟨rfl, -⟩ := List.cons.inj he
      exact .inl hp
    · exact .inr ⟨pre', c, post, hxs, hp⟩
  · rintro (hp | ⟨pre, c, post, rfl, hp⟩)
    · exact ⟨[], x, xs, rfl, hp⟩
    · exact ⟨x :: pre, c, post, rfl, hp⟩

/-- **An order is filled exactly when a call of the run completed it.** -/
theorem completed_runCalls {s : Paper × IdSource} (h : Sound s) (calls : List Call) (k : String) :
    (runCalls s calls).1.Completed k ↔
      s.1.Completed k ∨ ∃ pre c post, calls = pre ++ c :: post ∧ Completes (runCalls s pre).1 k c := by
  induction calls generalizing s with
  | nil => simp
  | cons c calls ih =>
    rw [runCalls_cons, ih (h.apply c), h.completed_effect (c.effect s) k, or_assoc]
    exact or_congr_right (@exists_split_cons _ (fun pre c' => Completes (runCalls s pre).1 k c') c calls).symm

/-! ### Filled quantities -/

/-- An execution of `qty` under a client id leaves what an open order has filled, plus `qty`, in the
range of words. -/
def FillFits (b : Paper) (k : String) (qty : Int64) : Prop :=
  ∀ p ∈ b.byClient? k, p.isOpen → 0 < qty → p.filled.toInt + qty.toInt ≤ Int64.maxValue.toInt

instance (b : Paper) (k : String) (qty : Int64) : Decidable (b.FillFits k qty) :=
  inferInstanceAs (Decidable (∀ p ∈ b.byClient? k, p.isOpen → 0 < qty → p.filled.toInt + qty.toInt ≤ Int64.maxValue.toInt))

/-- A call that keeps sums in range: any call but an execution, and an execution that fits. -/
def Call.Fits (b : Paper) : Call → Prop
  | .fill k qty _ _ => b.FillFits k qty
  | _ => True

instance Call.decideFits (b : Paper) : (c : Call) → Decidable (c.Fits b)
  | .fill k qty _ _ => inferInstanceAs (Decidable (b.FillFits k qty))
  | .submit .. | .cancel .. | .replace .. | .failNext _ | .lookup _ | .failLookups _ => isTrue trivial

/-- Every call of a run fits the book it is made on. -/
def FillsFit : Paper × IdSource → List Call → Prop
  | _, [] => True
  | s, c :: calls => c.Fits s.1 ∧ FillsFit (c.apply s) calls

instance decideFillsFit : (s : Paper × IdSource) → (calls : List Call) → Decidable (FillsFit s calls)
  | _, [] => isTrue trivial
  | s, c :: calls => @instDecidableAnd _ _ (Call.decideFits s.1 c) (decideFillsFit (c.apply s) calls)

/-- Every order of the book is bounded. -/
def Bounded (b : Paper) : Prop := ∀ p ∈ b.orders, p.Bounded

theorem Bounded.rewrote {b b' : Paper} (h : b.Bounded) (hd : b.Distinct) {p q : PaperOrder} (hp : p ∈ b.orders)
    (ho : b'.orders = (b.replaceOrder q).orders) (hq : Rewrites p q) (hb : q.Bounded) : b'.Bounded := fun x hx => by
  rcases mem_replaceOrder hd hp hq (ho ▸ hx) with rfl | hx
  · exact hb
  · exact h x hx

theorem Bounded.effect {s s' : Paper × IdSource} {c : Call} (hs : Sound s) (h : s.1.Bounded)
    (he : Effect s.1 s.2 c s') (hf : c.Fits s.1) : s'.1.Bounded := by
  cases he with
  | keeps ho _ _ => exact fun p hp => h p (ho ▸ hp)
  | opens _ ho _ =>
    intro p hp
    rw [ho, List.mem_append, List.mem_singleton] at hp
    rcases hp with hp | rfl
    · exact h p hp
    · exact ⟨Int64.le_refl _, .inl rfl⟩
  | @cancels _ _ p _ hp _ hs' _ =>
    exact h.rewrote hs.distinct (mem_of_byBroker? hp).1 hs' ⟨rfl, rfl, rfl, rfl⟩ (h p (mem_of_byBroker? hp).1)
  | @replaces _ _ p _ _ _ _ hp _ hle hs' _ =>
    exact h.rewrote hs.distinct (mem_of_byBroker? hp).1 hs' ⟨rfl, rfl, rfl, rfl⟩
      ⟨(h p (mem_of_byBroker? hp).1).1, .inr (Int64.not_lt.1 hle)⟩
  | @fills p _ _ _ _ hp hopen hpos hle hs' _ =>
    -- the execution fits, so what is filled grows by it without wrapping
    have h0 := Int64.le_iff_toInt_le.1 (h p (mem_of_byClient? hp).1).1
    have hq := pos_iff_toInt.1 hpos
    have hsum := toInt_add_of_le (by rw [Int64.toInt_minValue]; rw [Int64.toInt_zero] at h0; omega) (hf _ hp hopen hpos)
    refine h.rewrote hs.distinct (mem_of_byClient? hp).1 hs' ⟨rfl, rfl, rfl, rfl⟩ ⟨?_, .inr (Int64.not_lt.1 hle)⟩
    show 0 ≤ _ + _
    rw [Int64.le_iff_toInt_le, hsum]
    rw [Int64.toInt_zero] at h0 ⊢
    omega

/-- **While executions fit, every order stays bounded.** -/
theorem Bounded.run {s : Paper × IdSource} (hs : Sound s) (h : s.1.Bounded) {calls : List Call}
    (hf : FillsFit s calls) : (runCalls s calls).1.Bounded := by
  induction calls generalizing s with
  | nil => exact h
  | cons c calls ih => exact ih (hs.apply c) (h.effect hs (c.effect s) hf.1) hf.2

/-! ### What an open order can still take -/

section Open

variable {b : Paper} {p : PaperOrder} (hd : b.Distinct) (hp : p ∈ b.orders) (hb : p.Bounded)
include hd hp hb

/-- An open order that has filled less than its quantity takes the rest, which completes it. -/
theorem fill_rest (ho : p.isOpen) (hlt : p.filled < p.request.quantity) (price fee : Int64) :
    ∃ r, (b.fill p.clientId (p.request.quantity - p.filled) price fee).1 = .ok r ∧ r.final = true := by
  have h0 := Int64.le_iff_toInt_le.1 hb.1
  have hlt' := Int64.lt_iff_toInt_lt.1 hlt
  have hmax := Int64.toInt_lt p.request.quantity
  rw [Int64.toInt_zero] at h0
  -- the rest is positive: it lies between zero and the quantity, so it does not wrap
  have hrest : (p.request.quantity - p.filled).toInt = p.request.quantity.toInt - p.filled.toInt :=
    toInt_sub_of_le (by rw [Int64.toInt_minValue]; omega) (by rw [Int64.toInt_maxValue]; omega)
  have hpos : 0 < p.request.quantity - p.filled := pos_iff_toInt.2 (by omega)
  have hsum : p.filled + (p.request.quantity - p.filled) = p.request.quantity := by
    rw [Int64.add_comm, Int64.sub_add_cancel]
  obtain ⟨r, hr, hfinal⟩ :=
    fill_of_open price fee (hd.byClient? hp) ho hpos (by rw [hsum]; exact Int64.lt_irrefl)
  exact ⟨r, by rw [hr], hfinal.2 hsum⟩

/-- An order that has filled its quantity, or more, refuses every execution that fits. -/
theorem fill_refused_of_le (hle : p.request.quantity ≤ p.filled) {qty : Int64} (hfit : b.FillFits p.clientId qty)
    (price fee : Int64) : ∃ f, (b.fill p.clientId qty price fee).1 = .error f := by
  have hpass : ∀ p' ∈ b.byClient? p.clientId,
      ¬ (p'.isOpen ∧ 0 < qty ∧ ¬ p'.request.quantity < p'.filled + qty) := by
    rintro p' hp' ⟨ho, hpos, hnot⟩
    obtain rfl : p' = p := Option.some.inj ((Option.mem_def.1 hp').symm.trans (hd.byClient? hp))
    have h0 := Int64.le_iff_toInt_le.1 hb.1
    have hq := pos_iff_toInt.1 hpos
    have hle' := Int64.le_iff_toInt_le.1 hle
    rw [Int64.toInt_zero] at h0
    have hsum := toInt_add_of_le (by rw [Int64.toInt_minValue]; omega) (hfit p' hp' ho hpos)
    exact hnot (by rw [Int64.lt_iff_toInt_lt, hsum]; omega)
  obtain ⟨f, hf⟩ := fill_refused price fee hpass
  exact ⟨f, by rw [hf]⟩

end Open

/-! ### Runs from an empty book -/

/-- **The paper broker's book.** Along every run of calls from an empty book:

* every order is found under its client id and under its broker id, and only there;
* a submit under a client id the book holds changes no order and issues no id;
* a filled order has filled its quantity, and an order is filled exactly when an execution of
  the run was reported as final for its client id.

While no execution makes the sum of what an order has filled and what it executes leave the range
of words, every order has filled nothing negative and, once it has filled something, no more than
its quantity. An open order that has filled less than its quantity takes the rest, completing it;
an order that has filled its quantity or more refuses every execution. -/
theorem runCalls_keeps_book (ids : IdSource) (calls : List Call) :
    let b := (runCalls ({}, ids) calls).1
    (∀ p, (p ∈ b.orders ↔ b.byClient? p.clientId = some p) ∧ (p ∈ b.orders ↔ b.byBroker? p.brokerId = some p)) ∧
    (∀ ids' now tok req, b.Knows req.key →
      (b.submit ids' now tok req).2.1.orders = b.orders ∧ (b.submit ids' now tok req).2.2 = ids') ∧
    (∀ p ∈ b.orders, p.status = .filled → p.filled = p.request.quantity) ∧
    (∀ k, (∃ p ∈ b.orders, p.clientId = k ∧ p.status = .filled) ↔
      ∃ pre qty price fee post r, calls = pre ++ .fill k qty price fee :: post ∧
        ((runCalls ({}, ids) pre).1.fill k qty price fee).1 = .ok r ∧ r.final = true) ∧
    (FillsFit ({}, ids) calls → ∀ p ∈ b.orders, 0 ≤ p.filled ∧ (p.filled = 0 ∨ p.filled ≤ p.request.quantity) ∧
      (p.isOpen → p.filled < p.request.quantity → ∀ price fee,
        ∃ r, (b.fill p.clientId (p.request.quantity - p.filled) price fee).1 = .ok r ∧ r.final = true) ∧
      (p.request.quantity ≤ p.filled → ∀ qty price fee, b.FillFits p.clientId qty →
        ∃ f, (b.fill p.clientId qty price fee).1 = .error f)) := by
  intro b
  have hs : Sound (runCalls ({}, ids) calls) := (sound_empty ids).run calls
  refine ⟨fun p => ⟨⟨hs.distinct.byClient?, fun h => (mem_of_byClient? h).1⟩,
      ⟨hs.distinct.byBroker?, fun h => (mem_of_byBroker? h).1⟩⟩,
    fun ids' now tok req hk => submit_known hk ids' now tok, hs.filled, fun k => ?_, fun hf p hp => ?_⟩
  · have hnone : ¬ ({} : Paper).Completed k := fun ⟨_, hx, _⟩ => absurd hx List.not_mem_nil
    rw [← Completed, completed_runCalls (sound_empty ids) calls, or_iff_right hnone]
    constructor
    · rintro ⟨pre, c, post, rfl, hc⟩
      obtain ⟨qty, price, fee, r, rfl, hr, hfinal⟩ := completes_iff_final.1 hc
      exact ⟨pre, qty, price, fee, post, r, rfl, hr, hfinal⟩
    · rintro ⟨pre, qty, price, fee, post, r, rfl, hr, hfinal⟩
      exact ⟨pre, _, post, rfl, completes_iff_final.2 ⟨qty, price, fee, r, rfl, hr, hfinal⟩⟩
  · have hb : b.Bounded := Bounded.run (sound_empty ids) (fun _ hx => absurd hx List.not_mem_nil) hf
    exact ⟨(hb p hp).1, (hb p hp).2, fun ho hlt => fill_rest hs.distinct hp (hb p hp) ho hlt,
      fun hle _ _ _ hfit => fill_refused_of_le hs.distinct hp (hb p hp) hle hfit _ _⟩

/-- An order of ten filled by four, brought down to six, submitted again and filled by the last
two: every execution of the run fits. -/
theorem runCalls_keeps_book_after_replace :
    let calls : List Call := [.submit 0 ⟨true⟩ { key := "k1", symbol := "AAPL", side := .buy, quantity := 10 },
      .fill "k1" 4 100 1, .replace 0 ⟨true⟩ (Uuid.serial 1) 6 none "",
      .submit 0 ⟨true⟩ { key := "k1", symbol := "AAPL", side := .buy, quantity := 99 }, .fill "k1" 2 100 0]
    FillsFit ({}, {}) calls ∧
      ∀ p ∈ (runCalls ({}, {}) calls).1.orders, 0 ≤ p.filled ∧ (p.filled = 0 ∨ p.filled ≤ p.request.quantity) := by
  intro calls
  have hf : FillsFit ({}, {}) calls := by decide +kernel
  have h := (runCalls_keeps_book {} calls).2.2.2.2 hf
  exact ⟨hf, fun p hp => ⟨(h p hp).1, (h p hp).2.1⟩⟩

/-- An execution of the largest word on an order for the largest word that has filled five is
taken, since five and the largest word add up, as words, to a negative number. The order stays
open with a negative filled quantity. -/
theorem fill_wraps_past_quantity :
    ((runCalls ({}, {}) [.submit 0 ⟨true⟩ { key := "k1", symbol := "AAPL", side := .buy, quantity := Int64.maxValue },
      .fill "k1" 5 1 0, .fill "k1" Int64.maxValue 1 0]).1.orders.map fun p => (p.filled, p.status)) =
      [(-9223372036854775804, .new)] := by
  decide +kernel

end Paper

end TradeDesk
