import TradeDesk.Proofs.Broker.Orders
import TradeDesk.Proofs.Desk.BrokerIds
import TradeDesk.Proofs.Desk.Fills
import TradeDesk.Proofs.Ledger.Sequenced
import TradeDesk.Proofs.Order.Replay
import TradeDesk.Proofs.Store.Lifecycle
/-!
# The desk agrees with the broker

Reconcile finds no drift when the desk and the broker agree on every order. `Agrees w owed` is
that agreement in a world `w` where the broker has executed fills whose reports `owed` the desk
has not taken in yet:

  * every order the broker holds is tracked, and every live order (working or partially filled)
    is mapped to the broker order under its id, which is open unless a final report of the order
    is among those owed;
  * the broker holds one order per client id and per broker id, each under an issued id and for
    a tradable intent, and the outbox holds tradable intents only;
  * only orders that are not live are halted;
  * the reports owed pass the ledger's checks and come in increasing numbers above the ledger's
    last, up to the broker's count of executions; their ids name their numbers, while every id in
    the inbox, and every id a tracked order that is not terminal has seen, names a number the
    ledger has passed.

The last point is what lets each owed report reach the ledger and its order when it is taken in:
its id is new to the inbox and to its order. The part about the desk's orders alone, with the ids
passed left open, is `Desk.Follows`, which the feed of a batch of reports keeps too. With nothing
owed, the agreement says that reconcile finds no drift (`Agrees.compareBooks_eq_nil`).
-/

namespace TradeDesk

/-- An intent the broker reports fills of without the ledger refusing them: a symbol that is not
blank and a known side. -/
def Intent.Tradable (i : Intent) : Prop := Text.isBlank i.symbol = false ∧ i.side.valid = true

/-- Every intent of the outbox that reads is tradable. -/
def Store.Tradable (s : Store) : Prop := ∀ r ∈ s.outbox, ∀ i, Intent.decode r.orderJson = some i → i.Tradable

/-- A message id names a report number that the ledger has passed. -/
def Ledger.Passed (l : Ledger) (messageId : String) : Prop :=
  ∃ s n, Paper.Names messageId s ∧ l.lastSeq = some n ∧ s ≤ n.toNat

/-- The broker's book and the outbox hold what the desk could have sent: one order per client id
and per broker id, each under an id issued so far and for a tradable intent, and tradable intents
in the outbox. -/
structure Venue.Books (v : Venue) : Prop where
  distinct : v.broker.Distinct
  issued : ∀ p ∈ v.broker.orders, ∃ n, n ≤ v.ids.issued ∧ p.brokerId = Uuid.serial n
  requests : ∀ p ∈ v.broker.orders, p.request.Tradable
  rows : v.store.Tradable

/-- The desk follows the broker's book, given the reports `owed` it has not taken in and the
message ids `passed` it has: tracked orders are sorted, only orders that are not live are halted,
every order the broker holds is tracked, every live order is mapped to its broker order, which is
open unless a final report of the order is owed, and an order that is not terminal has seen only
passed ids. -/
structure Desk.Follows (d : Desk) (b : Paper) (owed : List BrokerFill) (passed : String → Prop) : Prop where
  /-- Tracked orders are kept in order of their ids. -/
  sorted : d.orders.Pairwise (·.id < ·.id)
  halted : ∀ k, (d.haltReason? k).isSome → ∃ o, d.order? k = some o ∧ o.state.live = false
  tracked : ∀ k, b.Knows k → (d.order? k).isSome
  live : ∀ k o, d.order? k = some o → o.state.live = true → ∃ p, b.byClient? k = some p ∧
    d.ids.brokerId? k = some p.brokerId ∧ (p.isOpen = true ∨ ∃ f ∈ owed, f.orderId = k ∧ f.final = true)
  seen : ∀ k o, d.order? k = some o → o.state.terminal = false → ∀ m ∈ o.seen, passed m

/-- The desk and the broker agree on every order, given the reports the desk is owed. -/
structure Agrees (w : World) (owed : List BrokerFill) : Prop
    extends w.1.Follows w.2.broker owed w.1.ledger.Passed where
  books : w.2.Books
  /-- Owed reports pass the ledger's checks of a fill. -/
  valid : ∀ f ∈ owed, f.tagged.fill.check = none
  increasing : owed.Pairwise (·.seq < ·.seq)
  above : ∀ f ∈ owed, ∀ n ∈ w.1.ledger.lastSeq, n < f.seq
  made : ∀ f ∈ owed, f.seq ≤ w.2.broker.fillSeq
  counted : ∀ n ∈ w.1.ledger.lastSeq, n ≤ w.2.broker.fillSeq
  named : ∀ f ∈ owed, Paper.Names f.messageId f.seq.toNat
  /-- Every id in the inbox names a report the ledger has passed. -/
  inbox : ∀ r ∈ w.2.store.inbox, w.1.ledger.Passed r.messageId

/-! ### Changes the agreement does not see -/

namespace Paper

theorem byClient?_congr {b b' : Paper} (h : b'.orders = b.orders) (k : String) : b'.byClient? k = b.byClient? k := by
  simp only [byClient?, h]

theorem knows_congr {b b' : Paper} (h : b'.orders = b.orders) (k : String) : b'.Knows k ↔ b.Knows k := by
  simp only [Knows, h]

theorem Distinct.congr {b b' : Paper} (hd : b.Distinct) (h : b'.orders = b.orders) : b'.Distinct := by
  obtain ⟨hc, hb⟩ := hd
  exact ⟨h ▸ hc, h ▸ hb⟩

end Paper

/-- Two desks with the same orders, ids, halts and last report number. -/
structure Desk.SameOrders (d d' : Desk) : Prop where
  orders : d'.orders = d.orders
  ids : d'.ids = d.ids
  halted : d'.halted = d.halted
  lastSeq : d'.ledger.lastSeq = d.ledger.lastSeq

theorem Desk.SameOrders.refl (d : Desk) : d.SameOrders d := ⟨rfl, rfl, rfl, rfl⟩

/-- Two venues with the same broker book and inbox, the second having issued at least as many ids. -/
structure Venue.SameBook (v v' : Venue) : Prop where
  orders : v'.broker.orders = v.broker.orders
  fillSeq : v'.broker.fillSeq = v.broker.fillSeq
  issued : v.ids.issued ≤ v'.ids.issued
  inbox : v'.store.inbox = v.store.inbox

theorem Venue.SameBook.refl (v : Venue) : v.SameBook v := ⟨rfl, rfl, Nat.le_refl _, rfl⟩

theorem Venue.sameBook_of_store (v : Venue) (s : Store) (h : s.inbox = v.store.inbox) :
    v.SameBook { v with store := s } :=
  ⟨rfl, rfl, Nat.le_refl _, h⟩

theorem Venue.Books.congr {v v' : Venue} (h : v.Books) (ho : v'.broker.orders = v.broker.orders)
    (hi : v.ids.issued ≤ v'.ids.issued) (hr : v'.store.Tradable) : v'.Books where
  distinct := h.distinct.congr ho
  issued := fun p hp => by
    obtain ⟨n, hn, he⟩ := h.issued p (ho ▸ hp)
    exact ⟨n, Nat.le_trans hn hi, he⟩
  requests := fun p hp => h.requests p (ho ▸ hp)
  rows := hr

namespace Desk.Follows

variable {d : Desk} {b : Paper} {owed : List BrokerFill} {P : String → Prop}

/-- A desk with the same orders, ids and halts follows the broker as well. -/
theorem congr (h : d.Follows b owed P) {d' : Desk} (ho : d'.orders = d.orders) (hi : d'.ids = d.ids)
    (hh : d'.halted = d.halted) : d'.Follows b owed P := by
  have hord := Desk.order?_congr ho
  refine
    { sorted := ho ▸ h.sorted
      halted := fun k hk => ?_
      tracked := fun k hk => (hord k).symm ▸ h.tracked k hk
      live := fun k o hk hl => ?_
      seen := fun k o hk ht => h.seen k o ((hord k) ▸ hk) ht }
  · simp only [Desk.haltReason?, hh] at hk
    rw [hord]
    exact h.halted k hk
  · rw [hord] at hk
    rw [hi]
    exact h.live k o hk hl

theorem mono (h : d.Follows b owed P) {Q : String → Prop} (hPQ : ∀ m, P m → Q m) : d.Follows b owed Q :=
  { h with seen := fun k o hk ht m hm => hPQ m (h.seen k o hk ht m hm) }

theorem of_orders (h : d.Follows b owed P) {b' : Paper} (hb : b'.orders = b.orders) : d.Follows b' owed P where
  sorted := h.sorted
  halted := h.halted
  tracked := fun k hk => h.tracked k ((Paper.knows_congr hb k).1 hk)
  live := fun k o ho hl => by
    rw [Paper.byClient?_congr hb]
    exact h.live k o ho hl
  seen := h.seen

theorem grow (h : d.Follows b owed P) {owed' : List BrokerFill} (hsub : ∀ f ∈ owed, f ∈ owed') :
    d.Follows b owed' P :=
  { h with
    live := fun k o ho hl => by
      obtain ⟨p, hp, hid, hopen⟩ := h.live k o ho hl
      exact ⟨p, hp, hid, hopen.imp_right fun ⟨g, hg, hgk, hgf⟩ => ⟨g, hsub g hg, hgk, hgf⟩⟩ }

end Desk.Follows

namespace Agrees

variable {w w' : World} {owed : List BrokerFill}

/-- A change that keeps the desk's orders and the broker's book, and leaves tradable intents in
the outbox, keeps the agreement. -/
theorem frame (h : Agrees w owed) (hd : w.1.SameOrders w'.1) (hv : w.2.SameBook w'.2) (hrows : w'.2.store.Tradable) :
    Agrees w' owed := by
  have hpassed : ∀ m, w.1.ledger.Passed m → w'.1.ledger.Passed m := fun m hm => by
    simpa only [Ledger.Passed, hd.lastSeq] using hm
  exact
    { toFollows := ((h.toFollows.congr hd.orders hd.ids hd.halted).of_orders hv.orders).mono hpassed
      books := h.books.congr hv.orders hv.issued hrows
      valid := h.valid
      increasing := h.increasing
      above := fun f hf n hn => h.above f hf n (hd.lastSeq ▸ hn)
      made := fun f hf => hv.fillSeq ▸ h.made f hf
      counted := fun n hn => hv.fillSeq ▸ h.counted n (hd.lastSeq ▸ hn)
      named := h.named
      inbox := fun r hr => hpassed _ (h.inbox r (hv.inbox ▸ hr)) }

end Agrees

/-! ### The outbox's intents -/

theorem Store.RowMove.orderJson {op : Store.Op} {r r' : OutboxRow} (h : Store.RowMove op r r') : r'.orderJson = r.orderJson := by
  cases h <;> rfl

namespace Store.Tradable

variable {s : Store} (h : s.Tradable)
include h

theorem of_outbox {s' : Store} (ho : s'.outbox = s.outbox) : s'.Tradable := fun r hr => h r (ho ▸ hr)

/-- A guarded change of a row that keeps its intent keeps the outbox tradable. -/
theorem transition {key : String} {change : OutboxRow → Option OutboxRow}
    (hc : ∀ r r', change r = some r' → r'.orderJson = r.orderJson) : (s.transition key change).2.Tradable := by
  unfold Store.transition
  split
  · exact h
  · rename_i r hr
    split
    · exact h
    · rename_i r' hr'
      intro x hx
      obtain ⟨y, hy, rfl⟩ := List.mem_map.1 hx
      split
      · rw [hc r r' hr']
        exact h r (List.mem_of_find?_eq_some hr)
      · exact h y hy

theorem release (key : String) : (s.release key).2.Tradable :=
  h.transition fun r r' hc => by split at hc <;> cases hc; rfl

theorem markSent (now : Instant) (key : String) : (s.markSent now key).2.Tradable :=
  h.transition fun r r' hc => by split at hc <;> cases hc; rfl

theorem markAcked (key : String) : (s.markAcked key).2.Tradable :=
  h.transition fun r r' hc => by cases hc; rfl

theorem markFailed (key : String) : (s.markFailed key).2.Tradable :=
  h.transition fun r r' hc => by split at hc <;> cases hc; rfl

theorem claimBatch (now : Instant) (limit : Int) (claimant : String) : (s.claimBatch now limit claimant).2.Tradable := by
  intro r' hr'
  obtain ⟨r, hr, hm⟩ := Store.exists_of_forall₂_right (Store.claimBatch_rows s now limit claimant) hr'
  rcases hm with he | hm
  · rw [he]
    exact h r hr
  · rw [hm.orderJson]
    exact h r hr

theorem enqueue {s' : Store} {now : Instant} {runId key json : String} {b : Bool}
    (he : s.enqueue now runId key json = .ok (b, s')) (hj : ∀ i, Intent.decode json = some i → i.Tradable) :
    s'.Tradable := by
  rcases Store.enqueue_cases s now runId key json with ⟨f, hf⟩ | ⟨-, hf⟩ | ⟨-, -, hf⟩ <;> rw [hf] at he
  · cases he
  · cases he
    exact h
  · cases he
    intro r hr
    rcases List.mem_append.1 hr with hr | hr
    · exact h r hr
    · rw [List.mem_singleton] at hr
      subst hr
      exact hj

theorem forget (v : Venue) (hv : v.store = s) (k : String) : (v.forget k).store.Tradable :=
  (h.of_outbox (by rw [hv, Store.outbox_removeMapping])).markAcked k

end Store.Tradable

/-! ### The broker's book -/

namespace Venue.Books

variable {v : Venue} (h : v.Books)
include h

/-- Rewriting an order of the book in place keeps the book as it must be. -/
theorem rewrite {p q : PaperOrder} (hp : p ∈ v.broker.orders) (hq : Paper.Rewrites p q) {b : Paper}
    (hb : b.orders = (v.broker.replaceOrder q).orders) : ({ v with broker := b } : Venue).Books where
  distinct := (Paper.distinct_replaceOrder h.distinct hp hq).congr hb
  issued := fun x hx => by
    rcases Paper.mem_replaceOrder h.distinct hp hq (hb ▸ hx) with rfl | hx
    · obtain ⟨n, hn, he⟩ := h.issued p hp
      exact ⟨n, hn, hq.brokerId.trans he⟩
    · exact h.issued x hx
  requests := fun x hx => by
    rcases Paper.mem_replaceOrder h.distinct hp hq (hb ▸ hx) with rfl | hx
    · obtain ⟨hs, hsd⟩ := h.requests p hp
      exact ⟨hq.symbol ▸ hs, hq.side ▸ hsd⟩
    · exact h.requests x hx
  rows := h.rows

/-- A new order under a client id the broker did not know, for a tradable intent, under the next
issued id, keeps the book as it must be. -/
theorem opened {v' : Venue} {k : String} {req : Intent} (hn : ¬ v.broker.Knows k) (hreq : req.Tradable)
    (ho : v'.broker.orders =
      v.broker.orders ++ [{ brokerId := Uuid.serial (v.ids.issued + 1), clientId := k, request := req }])
    (hi : v'.ids.issued = v.ids.issued + 1) (hr : v'.store.Tradable) : v'.Books where
  -- every broker id so far was issued before this one
  distinct := h.distinct.opened ho hn (Paper.fresh_serial h.issued)
  issued := fun x hx => by
    rw [ho, List.mem_append, List.mem_singleton] at hx
    rcases hx with hx | rfl
    · obtain ⟨n, hn, he⟩ := h.issued x hx
      exact ⟨n, by omega, he⟩
    · exact ⟨v.ids.issued + 1, by omega, rfl⟩
  requests := fun x hx => by
    rw [ho, List.mem_append, List.mem_singleton] at hx
    rcases hx with hx | rfl
    · exact h.requests x hx
    · exact hreq
  rows := hr

end Venue.Books

/-! ### Events the desk takes -/

namespace Desk

theorem mem_insertOrder {o x : Order} : ∀ {os : List Order}, x ∈ insertOrder o os → x = o ∨ x ∈ os
  | [], hx => .inl (List.mem_singleton.1 hx)
  | p :: ps, hx => by
    unfold insertOrder at hx
    split at hx
    · rcases List.mem_cons.1 hx with rfl | hx
      · exact .inl rfl
      · exact .inr (List.mem_cons_of_mem p hx)
    · split at hx
      · rcases List.mem_cons.1 hx with rfl | hx
        · exact .inl rfl
        · exact .inr hx
      · rcases List.mem_cons.1 hx with rfl | hx
        · exact .inr List.mem_cons_self
        · exact (mem_insertOrder hx).imp id (List.mem_cons_of_mem p)

theorem pairwise_insertOrder (o : Order) :
    ∀ {os : List Order}, os.Pairwise (·.id < ·.id) → (insertOrder o os).Pairwise (·.id < ·.id)
  | [], _ => List.pairwise_singleton _ o
  | p :: ps, hs => by
    rw [List.pairwise_cons] at hs
    unfold insertOrder
    split
    · rename_i he
      exact List.pairwise_cons.2 ⟨fun x hx => he ▸ hs.1 x hx, hs.2⟩
    · split
      · rename_i hlt
        refine List.pairwise_cons.2 ⟨fun x hx => ?_, List.pairwise_cons.2 hs⟩
        rcases List.mem_cons.1 hx with rfl | hx
        · exact hlt
        · exact String.lt_trans hlt (hs.1 x hx)
      · rename_i hne hnlt
        have hgt : p.id < o.id := Std.lt_of_le_of_ne hnlt (Ne.symm hne)
        refine List.pairwise_cons.2 ⟨fun x hx => ?_, pairwise_insertOrder o hs.2⟩
        rcases mem_insertOrder hx with rfl | hx
        · exact hgt
        · exact hs.1 x hx

/-- The desk after an event took order `o'` in place of the order at `k`, deregistering `k` when
`t` says the order just became terminal. -/
structure Took (d d' : Desk) (k : String) (o' : Order) (t : Bool) : Prop where
  orders : d'.orders = insertOrder o' d.orders
  ids : d'.ids = if t then d.ids.deregister k else d.ids
  halted : d'.halted = d.halted
  ledger : d'.ledger = d.ledger

/-- An event other than a replace acknowledgement, taken by a tracked order that is not halted. -/
theorem applyEventCore_of_apply {d : Desk} {k : String} {ev : Event} {m : String} {o o' : Order}
    (ho : d.order? k = some o) (hh : d.haltReason? k = none) (ha : o.apply ev m = .ok o')
    (hk : ev.kind ≠ .replaceAck) :
    ∃ d', d.applyEventCore k ev m = (.ok (o', o'.state.terminal && !o.state.terminal), d') ∧
      d.Took d' k o' (o'.state.terminal && !o.state.terminal) := by
  unfold applyEventCore
  simp only [ho, hh, ha, hk, if_false]
  refine ⟨_, rfl, ?_⟩
  constructor <;> split_ifs <;> rfl

/-- An event refused by a tracked order that is not halted halts it with the refusal's text. -/
theorem applyEventCore_of_refused {d : Desk} {k : String} {ev : Event} {m : String} {o : Order} {f : Fault}
    (ho : d.order? k = some o) (hh : d.haltReason? k = none) (ha : o.apply ev m = .error f) :
    d.applyEventCore k ev m = (.error f, { d with halted := (k, f.message) :: d.halted }) := by
  unfold applyEventCore
  simp only [ho, hh, ha]

/-- An event for an order that is not tracked, or is halted, is refused and changes nothing. -/
theorem applyEventCore_of_idle {d : Desk} {k : String} {ev : Event} {m : String}
    (h : d.order? k = none ∨ (d.haltReason? k).isSome) : ∃ f, d.applyEventCore k ev m = (.error f, d) := by
  unfold applyEventCore
  rcases h with ho | hh
  · simp only [ho]
    exact ⟨_, rfl⟩
  · obtain ⟨r, hr⟩ := Option.isSome_iff_exists.1 hh
    cases ho : d.order? k with
    | none => exact ⟨_, rfl⟩
    | some o =>
      simp only [hr]
      exact ⟨_, rfl⟩

theorem Took.order?_eq {d d' : Desk} {k : String} {o' : Order} {t : Bool} (hT : d.Took d' k o' t) (hid : o'.id = k)
    (k' : String) : d'.order? k' = if k = k' then some o' else d.order? k' := by
  rw [Desk.order?, hT.orders, find?_insertOrder, hid]
  rfl

end Desk

namespace IdMap

theorem brokerId?_deregister_of_ne {m : IdMap} (hs : m.Sorted) {k k' : String} (hk : k' ≠ k) :
    (m.deregister k).brokerId? k' = m.brokerId? k' := by
  refine Option.ext fun b => ?_
  rw [brokerId?_eq_some (hs.deregister k), brokerId?_eq_some hs, mem_deregister]
  exact and_iff_left hk

end IdMap

namespace Desk.Follows

variable {d : Desk} {b : Paper} {owed : List BrokerFill} {P : String → Prop}

/-- An event that puts an order in place at `k` keeps the desk following the broker, as long as
the new order is deregistered only if it is not live, is mapped to its broker order when live,
and has seen only passed ids when it is not terminal. -/
theorem took (h : d.Follows b owed P) (hs : d.ids.Sorted) {d' : Desk} {k : String} {o' : Order} {t : Bool}
    (hT : d.Took d' k o' t) (hid : o'.id = k) (hh : d.haltReason? k = none)
    (ht : t = true → o'.state.live = false)
    (hlive : o'.state.live = true → ∃ p, b.byClient? k = some p ∧ d.ids.brokerId? k = some p.brokerId ∧
      (p.isOpen = true ∨ ∃ f ∈ owed, f.orderId = k ∧ f.final = true))
    (hseen : o'.state.terminal = false → ∀ m ∈ o'.seen, P m) :
    d'.Follows b owed P := by
  have hord := hT.order?_eq hid
  have hhalt : ∀ k', d'.haltReason? k' = d.haltReason? k' := fun k' => by
    simp only [Desk.haltReason?, hT.halted]
  have hids : ∀ k', k' ≠ k → d'.ids.brokerId? k' = d.ids.brokerId? k' := fun k' hk' => by
    rw [hT.ids]
    split
    · exact IdMap.brokerId?_deregister_of_ne hs hk'
    · rfl
  refine
    { sorted := hT.orders ▸ Desk.pairwise_insertOrder o' h.sorted
      halted := fun k' hk' => ?_
      tracked := fun k' hk' => ?_
      live := fun k' o'' ho'' hl => ?_
      seen := fun k' o'' ho'' hnt m hm' => ?_ }
  · rw [hhalt] at hk'
    have hne : k ≠ k' := by
      rintro rfl
      simp [hh] at hk'
    rw [hord, if_neg hne]
    exact h.halted k' hk'
  · rw [hord]
    split
    · rfl
    · exact h.tracked k' hk'
  · rw [hord] at ho''
    split at ho''
    · rename_i he
      subst he
      cases ho''
      have htf : t = false := by
        cases t
        · rfl
        · rw [ht rfl] at hl
          cases hl
      obtain ⟨p, hp, hb, hopen⟩ := hlive hl
      refine ⟨p, hp, ?_, hopen⟩
      rw [hT.ids, htf, if_neg Bool.false_ne_true]
      exact hb
    · rename_i hne
      rw [hids k' (Ne.symm hne)]
      exact h.live k' o'' ho'' hl
  · rw [hord] at ho''
    split at ho''
    · cases ho''
      exact hseen hnt m hm'
    · exact h.seen k' o'' ho'' hnt m hm'

end Desk.Follows

namespace Agrees

variable {w : World} {owed : List BrokerFill}

/-- An event that puts an order in place at `k` keeps the agreement, under the conditions of
`Desk.Follows.took`. -/
theorem took (h : Agrees w owed) (hs : w.1.ids.Sorted) {d' : Desk} {k : String} {o' : Order} {t : Bool}
    (hT : w.1.Took d' k o' t) (hid : o'.id = k) (hh : w.1.haltReason? k = none)
    (ht : t = true → o'.state.live = false)
    (hlive : o'.state.live = true → ∃ p, w.2.broker.byClient? k = some p ∧ w.1.ids.brokerId? k = some p.brokerId ∧
      (p.isOpen = true ∨ ∃ f ∈ owed, f.orderId = k ∧ f.final = true))
    (hseen : o'.state.terminal = false → ∀ m ∈ o'.seen, w.1.ledger.Passed m) :
    Agrees (d', w.2) owed := by
  have hpassed : d'.ledger.Passed = w.1.ledger.Passed := by rw [hT.ledger]
  have hf := h.toFollows.took hs hT hid hh ht hlive hseen
  rw [← hpassed] at hf
  exact
    { toFollows := hf
      books := h.books
      valid := h.valid
      increasing := h.increasing
      above := fun f hf n hn => h.above f hf n (hT.ledger ▸ hn)
      made := h.made
      counted := fun n hn => h.counted n (hT.ledger ▸ hn)
      named := h.named
      inbox := fun r hr => by rw [hpassed]; exact h.inbox r hr }

/-- Rewriting a broker order in place keeps the agreement, as long as the order stays open, or a
final report of it is owed, while the desk's order of its client id is live. -/
theorem rewrite (h : Agrees w owed) {p q : PaperOrder} (hp : p ∈ w.2.broker.orders) (hq : Paper.Rewrites p q)
    {b : Paper} (hb : b.orders = (w.2.broker.replaceOrder q).orders) (hseq : b.fillSeq = w.2.broker.fillSeq)
    (hopen : ∀ o, w.1.order? p.clientId = some o → o.state.live = true →
      q.isOpen = true ∨ ∃ f ∈ owed, f.orderId = p.clientId ∧ f.final = true) :
    Agrees (w.1, { w.2 with broker := b }) owed := by
  have hbc : ∀ k, b.byClient? k = if p.clientId = k then some q else w.2.broker.byClient? k := fun k => by
    rw [Paper.byClient?_congr hb]
    exact Paper.byClient?_replaceOrder h.books.distinct hp hq k
  refine
    { books := h.books.rewrite hp hq hb
      sorted := h.sorted
      halted := h.halted
      tracked := fun k hk => ?_
      live := fun k o ho hl => ?_
      valid := h.valid
      increasing := h.increasing
      above := h.above
      made := fun f hf => hseq ▸ h.made f hf
      counted := fun n hn => hseq ▸ h.counted n hn
      named := h.named
      inbox := h.inbox
      seen := h.seen }
  · rw [Paper.knows_congr hb] at hk
    exact h.tracked k ((Paper.calm_replaceOrder _ q (hq.clientId ▸ List.mem_map_of_mem hp)).knows k hk)
  · obtain ⟨p', hp', hid, hor⟩ := h.live k o ho hl
    rw [hbc]
    split
    · rename_i hk
      subst hk
      have hpp : p' = p := by
        rw [h.books.distinct.byClient? hp] at hp'
        exact (Option.some.inj hp').symm
      subst hpp
      exact ⟨q, rfl, hq.brokerId ▸ hid, hopen o ho hl⟩
    · exact ⟨p', hp', hid, hor⟩

end Agrees

/-! ### The desk's own operations -/

/-- A stored intent reads back as a tradable one when it was written from one. -/
theorem Intent.Tradable.of_decode_encode {x i : Intent} (hx : x.Tradable) (hi : Intent.decode x.encode = some i) :
    i.Tradable := by
  rw [Intent.decode_encode x] at hi
  cases hi
  exact hx

namespace Agrees

variable {w : World} {owed : List BrokerFill}

theorem of_desk (h : Agrees w owed) {d : Desk} (hd : w.1.SameOrders d) : Agrees (d, w.2) owed :=
  h.frame hd (Venue.SameBook.refl _) h.books.rows

theorem arm (h : Agrees w owed) : Agrees (TradeDesk.arm w).2 owed := by
  unfold TradeDesk.arm
  split
  split
  · exact h
  · exact h.frame ⟨rfl, rfl, rfl, rfl⟩ (Venue.sameBook_of_store _ _ rfl) (h.books.rows.of_outbox rfl)

theorem disarm (h : Agrees w owed) (reason : String) : Agrees (TradeDesk.disarm w reason).2 owed := by
  unfold TradeDesk.disarm
  split
  split
  · exact h
  · exact h.frame ⟨rfl, rfl, rfl, rfl⟩ (Venue.sameBook_of_store _ _ rfl) (h.books.rows.of_outbox rfl)

theorem reconcile (h : Agrees w owed) : Agrees (TradeDesk.reconcile w).2 owed := by
  obtain ⟨d, v⟩ := w
  have hg : ∀ clean, Agrees ({ d with guard := d.guard.record v.now clean }, v) owed := fun _ =>
    h.of_desk ⟨rfl, rfl, rfl, rfl⟩
  unfold TradeDesk.reconcile
  dsimp only
  split
  · exact hg true
  · split
    · exact hg true
    · exact (hg false).disarm _

/-- Queuing an intent keeps the agreement: it writes a tradable intent, if any, and may issue an
id for its key. -/
theorem enqueueIntent (h : Agrees w owed) (i : Intent) : Agrees (TradeDesk.enqueueIntent w i).2 owed := by
  unfold TradeDesk.enqueueIntent
  split
  rename_i d v
  split
  · exact h
  · rename_i hvalid
    split
    · exact h
    · split
      rename_i i' v' heq
      -- completing the intent may draw a fresh key, which changes only the id source
      have hv : i'.symbol = i.symbol ∧ i'.side = i.side ∧ v.SameBook v' ∧ v'.store = v.store := by
        split at heq
        · cases heq
          exact ⟨rfl, rfl, ⟨rfl, rfl, Nat.le_succ _, rfl⟩, rfl⟩
        · cases heq
          exact ⟨rfl, rfl, Venue.SameBook.refl _, rfl⟩
      obtain ⟨hsym, hside, hbook, hst⟩ := hv
      have h' : Agrees (d, v') owed := h.frame (Desk.SameOrders.refl d) hbook (h.books.rows.of_outbox (by rw [hst]))
      dsimp only
      split
      · exact h'
      · split
        · exact h'
        · rename_i created store he
          refine h'.frame (Desk.SameOrders.refl d) (Venue.sameBook_of_store v' store ?_)
            (h'.books.rows.enqueue he fun j hj => Intent.Tradable.of_decode_encode ?_ hj)
          · exact Store.inbox_enqueue he
          · have ht : i'.Tradable := by
              obtain ⟨hblank, -, hsv⟩ := (by simpa using hvalid :
                Text.isBlank i.symbol = false ∧ 0 < i.quantity ∧ i.side.valid = true)
              exact ⟨hsym ▸ hblank, hside ▸ hsv⟩
            split_ifs <;> exact ht

theorem enqueueAll (h : Agrees w owed) (intents : List Intent) : Agrees (TradeDesk.enqueueAll w intents).2.2 owed := by
  induction intents generalizing w with
  | nil => exact h
  | cons i rest ih =>
    have h₁ := h.enqueueIntent i
    unfold TradeDesk.enqueueAll
    split
    · rename_i f w' heq
      rw [heq] at h₁
      exact h₁
    · rename_i queued _ w' heq
      rw [heq] at h₁
      exact ih h₁

end Agrees

/-! ### Cancels and replaces -/

namespace Order

/-- A cancel or replace request is legal only for a live order, which then waits for the answer
and has seen what it had seen. -/
theorem step_request {o o' : Order} {ev : Event} (hk : ev.kind = .cancelRequest ∨ ev.kind = .replaceRequest)
    (h : o.step ev = some o') : o.state.live = true ∧ o'.state.pending = true ∧ o'.seen = o.seen := by
  unfold step at h
  rcases hk with hk | hk <;> rw [hk] at h <;> dsimp only at h <;> split at h <;> cases h <;> exact ⟨‹_›, rfl, rfl⟩

theorem apply_empty {o o' : Order} {ev : Event} (h : o.step ev = some o') : o.apply ev "" = .ok o' := by
  simp [apply, h]

/-- The acknowledgement of a cancel leaves the order cancelled, or as it was when its id was seen. -/
theorem apply_cancelAck {o : Order} (hp : o.state = .cancelPending) (m : String) :
    ∃ o', o.apply ⟨.cancelAck, 0⟩ m = .ok o' ∧ o'.state.live = false ∧ (o'.state.terminal = false → o' = o) := by
  have hnl : o.state.live = false := by rw [hp]; rfl
  unfold apply
  split
  · exact ⟨o, rfl, hnl, fun _ => rfl⟩
  · have hs : o.step ⟨.cancelAck, 0⟩ = some { o with state := .cancelled, prior := none } := by
      simp [step, hp]
    rw [hs]
    refine ⟨_, rfl, ?_, ?_⟩ <;> split <;> simp [OrderState.live, OrderState.terminal]

end Order

/-- A request the desk let through for a tracked order that is not terminal is legal for it. -/
theorem Desk.step_of_checkRequest {d : Desk} {k : String} {ev : Event} {o : Order} (hchk : d.checkRequest k ev = .ok ())
    (ho : d.order? k = some o) (hnt : o.state.terminal = false) : ∃ o', o.step ev = some o' := by
  cases hs : o.step ev with
  | some o' => exact ⟨o', rfl⟩
  | none => simp [Desk.checkRequest, ho, hnt, Order.check, hs] at hchk

namespace Venue

/-- A cancel through the gateway that the broker took: the mapped order was open, and is cancelled. -/
theorem cancel_ok {v v' : Venue} {gs : Gates} {k : String} {ids : Option IdMap} {ack : BrokerAck}
    (h : v.cancel gs k ids = (.ok ack, v')) :
    ∃ p, ids.bind (·.brokerId? k) = some p.brokerId ∧ v.broker.byBroker? p.brokerId = some p ∧ p.isOpen = true ∧
      ack = { brokerId := p.brokerId, status := "canceled", stamped := v.now } ∧
      v' = { v with broker := v.broker.replaceOrder { p with status := .canceled } } := by
  unfold cancel at h
  split at h
  · cases h
  · split at h
    · cases h
    · rename_i bid hbid
      obtain ⟨-, hc⟩ := v.broker.cancel_cases v.now minted bid
      generalize v.broker.cancel v.now minted bid = c at h hc
      obtain ⟨r, b⟩ := c
      simp only [Prod.mk.injEq] at h
      obtain ⟨hr, rfl⟩ := h
      rcases hc with ⟨-, f, hf⟩ | ⟨p, hp, ho, hack, hb⟩
      · dsimp only at hf
        subst hf
        cases hr
      · dsimp only at hack hb
        subst hack hb
        cases hr
        obtain ⟨-, rfl⟩ := Paper.mem_of_byBroker? hp
        exact ⟨p, hbid, hp, ho, rfl, rfl⟩

/-- A cancel the gateway or the broker refused changes no order, no id and not the store. -/
theorem cancel_error {v v' : Venue} {gs : Gates} {k : String} {ids : Option IdMap} {f : Fault}
    (h : v.cancel gs k ids = (.error f, v')) : v.SameBook v' ∧ v'.store = v.store := by
  unfold cancel at h
  split at h
  · cases h
    exact ⟨Venue.SameBook.refl _, rfl⟩
  · split at h
    · cases h
      exact ⟨Venue.SameBook.refl _, rfl⟩
    · rename_i bid _
      obtain ⟨hseq, hc⟩ := v.broker.cancel_cases v.now minted bid
      generalize v.broker.cancel v.now minted bid = c at h hc hseq
      obtain ⟨r, b⟩ := c
      simp only [Prod.mk.injEq] at h
      obtain ⟨hr, rfl⟩ := h
      rcases hc with ⟨ho, -⟩ | ⟨p, -, -, hack, -⟩
      · exact ⟨⟨ho, hseq, Nat.le_refl _, rfl⟩, rfl⟩
      · dsimp only at hack
        subst hack
        cases hr

/-- A replace through the gateway that the broker took: the mapped order was open, and is
rewritten in place, still open. -/
theorem replace_ok {v v' : Venue} {gs : Gates} {k : String} {ids : Option IdMap} {qty : Int64}
    {limit : Option Int64} {tif : String} {ack : BrokerAck} (h : v.replace gs k ids qty limit tif = (.ok ack, v')) :
    ∃ p q, ids.bind (·.brokerId? k) = some p.brokerId ∧ v.broker.byBroker? p.brokerId = some p ∧
      Paper.Rewrites p q ∧ q.isOpen = true ∧ ack.brokerId = p.brokerId ∧
      v' = { v with broker := v.broker.replaceOrder q } := by
  unfold replace at h
  split at h
  · cases h
  · split at h
    · cases h
    · rename_i bid hbid
      obtain ⟨-, hc⟩ := v.broker.replace_cases v.now minted bid qty limit tif
      generalize v.broker.replace v.now minted bid qty limit tif = c at h hc
      obtain ⟨r, b⟩ := c
      simp only [Prod.mk.injEq] at h
      obtain ⟨hr, rfl⟩ := h
      rcases hc with ⟨-, f, hf⟩ | ⟨p, q, hp, -, hq, hqo, hack, hb⟩
      · dsimp only at hf
        subst hf
        cases hr
      · dsimp only at hack hb
        subst hack hb
        cases hr
        obtain ⟨-, rfl⟩ := Paper.mem_of_byBroker? hp
        exact ⟨p, q, hbid, hp, hq, hqo, rfl, rfl⟩

theorem replace_error {v v' : Venue} {gs : Gates} {k : String} {ids : Option IdMap} {qty : Int64}
    {limit : Option Int64} {tif : String} {f : Fault} (h : v.replace gs k ids qty limit tif = (.error f, v')) :
    v.SameBook v' ∧ v'.store = v.store := by
  unfold replace at h
  split at h
  · cases h
    exact ⟨Venue.SameBook.refl _, rfl⟩
  · split at h
    · cases h
      exact ⟨Venue.SameBook.refl _, rfl⟩
    · rename_i bid _
      obtain ⟨hseq, hc⟩ := v.broker.replace_cases v.now minted bid qty limit tif
      generalize v.broker.replace v.now minted bid qty limit tif = c at h hc hseq
      obtain ⟨r, b⟩ := c
      simp only [Prod.mk.injEq] at h
      obtain ⟨hr, rfl⟩ := h
      rcases hc with ⟨ho, -⟩ | ⟨p, q, -, -, -, -, hack, -⟩
      · exact ⟨⟨ho, hseq, Nat.le_refl _, rfl⟩, rfl⟩
      · dsimp only at hack
        subst hack
        cases hr

end Venue

namespace Agrees

variable {d : Desk} {v : Venue} {owed : List BrokerFill}

/-- The order a cancel or replace reaches the broker for is tracked and live, and the broker order
under its broker id is the one of its client id. -/
theorem mapped_live (h : Agrees (d, v) owed) (hm : d.Mapped v.store) {k : String} {ev : Event}
    (hk : ev.kind = .cancelRequest ∨ ev.kind = .replaceRequest) (hchk : d.checkRequest k ev = .ok ())
    {p : PaperOrder} (hbid : (some (d.mappingFor k)).bind (·.brokerId? k) = some p.brokerId)
    (hp : v.broker.byBroker? p.brokerId = some p) :
    ∃ o, d.order? k = some o ∧ o.state.live = true ∧ p.clientId = k := by
  rw [Option.bind_some, Desk.brokerId?_mappingFor] at hbid
  -- a mapped order is tracked and not terminal, and the request passed its check
  obtain ⟨o, ho, hnt⟩ := (hm.live k).1 ⟨p.brokerId, (hm.same _).1 ((IdMap.brokerId?_eq_some hm.sorted).1 hbid)⟩
  obtain ⟨o', hs⟩ := Desk.step_of_checkRequest hchk ho hnt
  have hl := (Order.step_request hk hs).1
  -- the broker order of its client id has the same broker id, so it is this one
  obtain ⟨p₀, hp₀, hid₀, -⟩ := h.live k o ho hl
  rw [hbid] at hid₀
  obtain ⟨hmem₀, hk₀⟩ := Paper.mem_of_byClient? hp₀
  have hpp : p₀ = p := by
    have := h.books.distinct.byBroker? hmem₀
    rw [← Option.some.inj hid₀, hp] at this
    exact (Option.some.inj this).symm
  exact ⟨o, ho, hl, hpp ▸ hk₀⟩

/-- A cancel keeps the agreement: the broker closes the order as the desk stops taking it for live. -/
theorem cancel (h : Agrees (d, v) owed) (hm : d.Mapped v.store) (k : String) :
    Agrees (TradeDesk.cancel (d, v) k).2.2 owed := by
  unfold TradeDesk.cancel
  dsimp only
  split
  · exact h
  · rename_i hh
    split
    · exact h
    · rename_i hchk
      split
      · rename_i f v' heq
        obtain ⟨hb, hst⟩ := Venue.cancel_error heq
        exact h.frame (Desk.SameOrders.refl d) hb (h.books.rows.of_outbox (by rw [hst]))
      · rename_i ack v' heq
        obtain ⟨p, hbid, hp, -, rfl, rfl⟩ := Venue.cancel_ok heq
        obtain ⟨o, ho, hl, hpk⟩ := h.mapped_live hm (.inl rfl) hchk hbid hp
        have hnt : o.state.terminal = false := by
          rcases OrderState.eq_of_live hl with hs | hs <;> rw [hs] <;> rfl
        have ha : o.apply ⟨.cancelRequest, 0⟩ "" = .ok { o with prior := some o.state, state := .cancelPending } :=
          Order.apply_empty (by simp [Order.step, hl])
        obtain ⟨d₁, hA, hT₁⟩ := Desk.applyEventCore_of_apply ho hh ha (by decide)
        have hid : ({ o with prior := some o.state, state := .cancelPending } : Order).id = k :=
          (Desk.id_of_order? ho : o.id = k)
        have h₁ : Agrees (d₁, v) owed :=
          h.took hm.sorted hT₁ hid hh (fun _ => rfl) (fun hl' => by cases hl')
            (fun _ m hm' => h.seen k o ho hnt m hm')
        have h₂ := h₁.rewrite (Paper.mem_of_byBroker? hp).1
          (show Paper.Rewrites p { p with status := .canceled } from ⟨rfl, rfl, rfl, rfl⟩)
          rfl rfl fun o₂ ho₂ hl₂ => by
            rw [hpk, hT₁.order?_eq hid, if_pos rfl] at ho₂
            cases ho₂
            cases hl₂
        rw [hA]
        dsimp only
        rw [if_pos rfl]
        obtain ⟨o₂, ha₂, hnl₂, hnt₂⟩ :=
          @Order.apply_cancelAck { o with prior := some o.state, state := .cancelPending } rfl ("cancel-ack-" ++ p.brokerId)
        have hh₁ : d₁.haltReason? k = none := by
          simp only [Desk.haltReason?, hT₁.halted]
          exact hh
        have ho₁ : d₁.order? k = some { o with prior := some o.state, state := .cancelPending } := by
          rw [hT₁.order?_eq hid, if_pos rfl]
        obtain ⟨d₂, hB, hT₂⟩ := Desk.applyEventCore_of_apply ho₁ hh₁ ha₂ (by decide)
        rw [hB]
        dsimp only
        have hs₁ : d₁.ids.Sorted := by
          rw [hT₁.ids]
          exact hm.sorted
        have hid₂ : o₂.id = k := (Order.apply_keeps ha₂).1.trans hid
        have h₃ : Agrees (d₂, { v with broker := v.broker.replaceOrder { p with status := .canceled } }) owed :=
          h₂.took hs₁ hT₂ hid₂ hh₁ (fun _ => hnl₂) (fun hl₂ => by rw [hnl₂] at hl₂; cases hl₂)
            (fun ht₂ m hm' => by
              show d₁.ledger.Passed m
              rw [hT₁.ledger]
              rw [hnt₂ ht₂] at hm'
              exact h.seen k o ho hnt m hm')
        split
        · exact h₃.frame (Desk.SameOrders.refl _) ⟨rfl, rfl, Nat.le_refl _, by simp [Venue.forget]⟩
            (h₃.books.rows.forget _ rfl k)
        · exact h₃

/-- A replace keeps the agreement: the broker rewrites the open order in place, keeping its broker
id, and the desk waits for the answer. -/
theorem replace (h : Agrees (d, v) owed) (hm : d.Mapped v.store) (k : String) (qty : Int64) (limit : Option Int64)
    (tif : String) : Agrees (TradeDesk.replace (d, v) k qty limit tif).2.2 owed := by
  unfold TradeDesk.replace
  dsimp only
  split
  · exact h
  · rename_i hh
    split
    · exact h
    · rename_i hchk
      split
      · rename_i f v' heq
        obtain ⟨hb, hst⟩ := Venue.replace_error heq
        exact h.frame (Desk.SameOrders.refl d) hb (h.books.rows.of_outbox (by rw [hst]))
      · rename_i ack v' heq
        obtain ⟨p, q, hbid, hp, hq, -, hack, rfl⟩ := Venue.replace_ok heq
        obtain ⟨o, ho, hl, hpk⟩ := h.mapped_live hm (.inr rfl) hchk hbid hp
        have hmoved : ¬ (ack.brokerId ≠ "" ∧ ack.brokerId ≠ ((d.mappingFor k).brokerId? k).getD "") := by
          rw [Option.bind_some] at hbid
          rw [hbid, hack]
          simp
        rw [if_neg hmoved, if_neg hmoved]
        have hnt : o.state.terminal = false := by
          rcases OrderState.eq_of_live hl with hs | hs <;> rw [hs] <;> rfl
        have ha : o.apply ⟨.replaceRequest, 0⟩ "" = .ok { o with prior := some o.state, state := .replacePending } :=
          Order.apply_empty (by simp [Order.step, hl])
        obtain ⟨d₁, hA, hT₁⟩ := Desk.applyEventCore_of_apply ho hh ha (by decide)
        have hid : ({ o with prior := some o.state, state := .replacePending } : Order).id = k :=
          (Desk.id_of_order? ho : o.id = k)
        have h₁ : Agrees (d₁, v) owed :=
          h.took hm.sorted hT₁ hid hh (fun _ => rfl) (fun hl' => by cases hl')
            (fun _ m hm' => h.seen k o ho hnt m hm')
        have h₂ := h₁.rewrite (Paper.mem_of_byBroker? hp).1 hq rfl rfl fun o₂ ho₂ hl₂ => by
          rw [hpk, hT₁.order?_eq hid, if_pos rfl] at ho₂
          cases ho₂
          cases hl₂
        rw [hA]
        exact h₂.of_desk ⟨rfl, rfl, rfl, rfl⟩

end Agrees

/-! ### No drift -/

/-- In a desk whose orders are sorted by id, every order is the one tracked under its id. -/
theorem Desk.order?_of_mem {d : Desk} (hs : d.orders.Pairwise (·.id < ·.id)) {o : Order} (ho : o ∈ d.orders) :
    d.order? o.id = some o := by
  have hnd : (d.orders.map (·.id)).Nodup :=
    List.pairwise_map.2 (hs.imp fun {a b} (h : a.id < b.id) (he : a.id = b.id) => String.lt_irrefl b.id (he ▸ h))
  exact Paper.find?_of_nodup hnd ho

/-- Books agree when every order expected open is listed with the broker id expected, and every
listed order is known. -/
theorem compareBooks_eq_nil {expected brokerOpen : List (String × String)} {known : String → Bool}
    (hexp : ∀ e ∈ expected, brokerOpen.lookup e.1 = some e.2) (hknown : ∀ e ∈ brokerOpen, known e.1 = true) :
    compareBooks expected brokerOpen known = [] := by
  unfold compareBooks
  dsimp only
  rw [List.filterMap_eq_nil_iff.2 ?_, List.filterMap_eq_nil_iff.2 ?_]
  · simp
  · rintro ⟨id, remote⟩ he
    simp [hknown _ he]
  · rintro ⟨id, mine⟩ he
    simp [hexp _ he]

/-- **With nothing owed, reconcile finds no drift.** Every order the desk expects open is open at
the broker under its id with the broker id it has, and every open broker order is tracked. -/
theorem Agrees.compareBooks_eq_nil {w : World} (h : Agrees w []) :
    compareBooks w.1.expectedOpen w.2.broker.openOrders (knownOrder w.1 w.2.store) = [] := by
  refine TradeDesk.compareBooks_eq_nil (fun e he => ?_) (fun e he => ?_)
  · -- an expected order is live and mapped, so the broker lists it with the same broker id
    simp only [Desk.expectedOpen, List.mem_filterMap] at he
    obtain ⟨o, ho, hsome⟩ := he
    split at hsome
    · rename_i hst
      obtain ⟨b, hb, rfl⟩ := Option.map_eq_some_iff.1 hsome
      have hlive : o.state.live = true := by rcases hst with hst | hst <;> rw [hst] <;> rfl
      obtain ⟨p, hp, hid, hopen⟩ := h.live o.id o (Desk.order?_of_mem h.sorted ho) hlive
      have hopen : p.isOpen = true := by simpa using hopen
      obtain ⟨hpm, hpk⟩ := Paper.mem_of_byClient? hp
      rw [hb] at hid
      cases hid
      rw [← hpk]
      exact h.books.distinct.lookup_openOrders hpm hopen
    · cases hsome
  · obtain ⟨p, hp, -, rfl⟩ := Paper.mem_openOrders.1 he
    have ht := h.tracked p.clientId (List.mem_map_of_mem hp)
    simp [knownOrder, ht]

end TradeDesk
