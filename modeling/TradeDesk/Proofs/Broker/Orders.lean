import TradeDesk.Proofs.Broker.Book
import TradeDesk.Proofs.Json.RoundTrip
import Mathlib.Data.List.Nodup
/-!
# The orders in the broker's book

The broker's ids are the desk's issued identifiers, and the id of an execution report is the
order's broker id, a dash and the report's number. Both are distinct: the `n`-th identifier spells
`n` in hex digits (`Uuid.serial_injective`), and a report id ends in the decimal numeral of its
number after its last dash (`Paper.Names.unique`).

`Paper.Distinct` says the book holds one order per client id and one per broker id. Each call that
changes an order rewrites the one order it found and keeps its ids, its symbol and its side
(`Paper.Rewrites`); a submit under a client id the broker does not know appends an open order
under the next issued id. The lemmas below say what each call does to the orders and to the count
of executions, and what the book then answers by client id and lists as open.
-/

namespace TradeDesk

/-! ### Identifiers -/

namespace Text

theorem hexDigits_succ (w n : Nat) : hexDigits (w + 1) n = hexDigit (n / 16 ^ w % 16) :: hexDigits w n := by
  simp [hexDigits, List.range_succ]

@[simp] theorem length_hexDigits (w n : Nat) : (hexDigits w n).length = w := by
  simp [hexDigits]

theorem hexDigit_inj {a b : Nat} (ha : a < 16) (hb : b < 16) (h : hexDigit a = hexDigit b) : a = b := by
  have hread := Json.hexValue?_hexDigit a ha
  rw [h, Json.hexValue?_hexDigit b hb] at hread
  exact (Option.some.inj hread).symm

/-- Digits of one width that agree spell numbers that agree below that width. -/
theorem mod_eq_of_hexDigits_eq : ∀ {w a b : Nat}, hexDigits w a = hexDigits w b → a % 16 ^ w = b % 16 ^ w
  | 0, a, b, _ => by rw [Nat.pow_zero, Nat.mod_one, Nat.mod_one]
  | w + 1, a, b, h => by
    rw [hexDigits_succ, hexDigits_succ, List.cons.injEq] at h
    have hd := hexDigit_inj (Nat.mod_lt _ (by decide)) (Nat.mod_lt _ (by decide)) h.1
    rw [Nat.mod_pow_succ, Nat.mod_pow_succ, mod_eq_of_hexDigits_eq h.2, hd]

/-- Two words, each followed by a separator it does not contain, agree when what they start does. -/
theorem eq_of_append_sep {α : Type} {c : α} :
    ∀ {xs ys r s : List α}, c ∉ xs → c ∉ ys → xs ++ c :: r = ys ++ c :: s → xs = ys
  | [], [], _, _, _, _, _ => rfl
  | [], y :: _, _, _, _, hy, h => absurd ((List.cons.inj h).1 ▸ List.mem_cons_self) hy
  | x :: _, [], _, _, hx, _, h => absurd ((List.cons.inj h).1 ▸ List.mem_cons_self) hx
  | x :: xs, y :: ys, _, _, hx, hy, h => by
    obtain ⟨hxy, h'⟩ := List.cons.inj h
    rw [hxy, eq_of_append_sep (List.not_mem_of_not_mem_cons hx) (List.not_mem_of_not_mem_cons hy) h']

theorem dash_not_mem_toDigits (n : Nat) : '-' ∉ Nat.toDigits 10 n := fun h =>
  absurd (Json.isDigit_of_mem_toDigits h) (by decide)

end Text

namespace Uuid

/-- The high part of an identifier is written with at least as many digits as it has. -/
theorem lt_pow_width (q : Nat) : q < 16 ^ max 8 (Nat.toDigits 16 q).length := by
  have hlen : q < 16 ^ (Nat.toDigits 16 q).length :=
    (Nat.length_toDigits_le_iff (by decide) Nat.length_toDigits_pos).1 (Nat.le_refl _)
  exact Nat.lt_of_lt_of_le hlen (Nat.pow_le_pow_right (by decide) (Nat.le_max_right _ _))

/-- **Issued identifiers are distinct.** -/
theorem serial_injective : Function.Injective serial := by
  intro m n h
  have hl := congrArg String.toList h
  simp only [serial, String.toList_append, String.toList_ofList] at hl
  have hcut := List.append_cancel_right hl
  -- the low part has four digits on both sides, so the high parts have one width
  have hlen := congrArg List.length hcut
  simp only [List.length_append, List.length_cons, Text.length_hexDigits] at hlen
  have hwidth : max 8 (Nat.toDigits 16 (m / 65536)).length = max 8 (Nat.toDigits 16 (n / 65536)).length := by
    omega
  obtain ⟨hhi, hlo⟩ := List.append_inj hcut (by simp only [Text.length_hexDigits]; exact hwidth)
  rw [hwidth] at hhi
  have hq := Text.mod_eq_of_hexDigits_eq hhi
  rw [Nat.mod_eq_of_lt (hwidth ▸ lt_pow_width _), Nat.mod_eq_of_lt (lt_pow_width _)] at hq
  have hr := Text.mod_eq_of_hexDigits_eq (List.cons.inj hlo).2
  rw [Nat.mod_eq_of_lt (by omega : m % 65536 < 16 ^ 4), Nat.mod_eq_of_lt (by omega : n % 65536 < 16 ^ 4)] at hr
  omega

end Uuid

namespace Paper

/-- A message id names report number `n`: some broker id, a dash, and the numeral of `n`. -/
def Names (messageId : String) (n : Nat) : Prop := ∃ brokerId, messageId = brokerId ++ "-" ++ Text.ofNat n

/-- A message id names one report number: the numeral after the last dash. -/
theorem Names.unique {m : String} {a b : Nat} (ha : Names m a) (hb : Names m b) : a = b := by
  obtain ⟨x, rfl⟩ := ha
  obtain ⟨y, hy⟩ := hb
  have hl := congrArg (fun s : String => s.toList.reverse) hy
  simp only [String.toList_append, Json.toList_ofNat, List.reverse_append, List.append_assoc] at hl
  have hdigits := Text.eq_of_append_sep
    (fun h => Text.dash_not_mem_toDigits a (List.mem_reverse.1 h))
    (fun h => Text.dash_not_mem_toDigits b (List.mem_reverse.1 h)) hl
  rw [List.reverse_inj] at hdigits
  calc a = Nat.ofDigitChars 10 (Nat.toDigits 10 a) 0 := Nat.ofDigitChars_ten_toDigits.symm
    _ = Nat.ofDigitChars 10 (Nat.toDigits 10 b) 0 := by rw [hdigits]
    _ = b := Nat.ofDigitChars_ten_toDigits

/-! ### One order per id -/

/-- The order found under a key of a list whose keys are distinct is the one with that key. -/
theorem find?_of_nodup {α β : Type} [DecidableEq β] {f : α → β} :
    ∀ {l : List α} {x : α}, (l.map f).Nodup → x ∈ l → l.find? (fun y => f y = f x) = some x
  | [], _, _, hx => absurd hx List.not_mem_nil
  | y :: ys, x, hnd, hx => by
    rw [List.map_cons, List.nodup_cons] at hnd
    rw [List.find?_cons]
    rcases List.mem_cons.1 hx with rfl | hx
    · simp
    · have hne : f y ≠ f x := fun he => hnd.1 (he ▸ List.mem_map_of_mem hx)
      simp only [hne, decide_false]
      exact find?_of_nodup hnd.2 hx

/-- No two orders of the book share a client id or a broker id. -/
structure Distinct (b : Paper) : Prop where
  clients : (b.orders.map (·.clientId)).Nodup
  brokers : (b.orders.map (·.brokerId)).Nodup

theorem mem_of_byClient? {b : Paper} {k : String} {p : PaperOrder} (h : b.byClient? k = some p) :
    p ∈ b.orders ∧ p.clientId = k :=
  ⟨List.mem_of_find?_eq_some h, by simpa using List.find?_some h⟩

theorem mem_of_byBroker? {b : Paper} {id : String} {p : PaperOrder} (h : b.byBroker? id = some p) :
    p ∈ b.orders ∧ p.brokerId = id :=
  ⟨List.mem_of_find?_eq_some h, by simpa using List.find?_some h⟩

theorem Distinct.byClient? {b : Paper} (hd : b.Distinct) {p : PaperOrder} (hp : p ∈ b.orders) :
    b.byClient? p.clientId = some p :=
  find?_of_nodup hd.clients hp

theorem Distinct.byBroker? {b : Paper} (hd : b.Distinct) {p : PaperOrder} (hp : p ∈ b.orders) :
    b.byBroker? p.brokerId = some p :=
  find?_of_nodup hd.brokers hp

/-- An identifier issued after all of the book's broker ids is none of them. -/
theorem fresh_serial {b : Paper} {issued : Nat}
    (h : ∀ p ∈ b.orders, ∃ n, n ≤ issued ∧ p.brokerId = Uuid.serial n) :
    Uuid.serial (issued + 1) ∉ b.orders.map (·.brokerId) := by
  intro hmem
  obtain ⟨x, hx, hxid⟩ := List.mem_map.1 hmem
  obtain ⟨n, hn, hxn⟩ := h x hx
  have := Uuid.serial_injective (hxn.symm.trans hxid)
  omega

/-- A new order under a client id and a broker id the book does not hold keeps it distinct. -/
theorem Distinct.opened {b b' : Paper} (hd : b.Distinct) {o : PaperOrder} (ho : b'.orders = b.orders ++ [o])
    (hn : ¬ b.Knows o.clientId) (hfresh : o.brokerId ∉ b.orders.map (·.brokerId)) : b'.Distinct := by
  refine ⟨?_, ?_⟩
  · rw [ho, List.map_append, List.nodup_append]
    refine ⟨hd.clients, List.nodup_singleton _, fun a ha c hc he => hn ?_⟩
    rw [List.map_singleton, List.mem_singleton] at hc
    exact hc ▸ he ▸ ha
  · rw [ho, List.map_append, List.nodup_append]
    refine ⟨hd.brokers, List.nodup_singleton _, fun a ha c hc he => hfresh ?_⟩
    rw [List.map_singleton, List.mem_singleton] at hc
    exact hc ▸ he ▸ ha

/-- An order rewritten in place: the same ids, symbol and side. -/
structure Rewrites (p q : PaperOrder) : Prop where
  clientId : q.clientId = p.clientId
  brokerId : q.brokerId = p.brokerId
  symbol : q.request.symbol = p.request.symbol
  side : q.request.side = p.request.side

section Rewrite

variable {b : Paper} {p q : PaperOrder} (hd : b.Distinct) (hp : p ∈ b.orders) (hq : Rewrites p q)
include hd hp hq

/-- Rewriting an order of a distinct book changes that order alone. -/
theorem orders_replaceOrder : (b.replaceOrder q).orders = b.orders.map fun x => if x = p then q else x := by
  refine List.map_congr_left fun x hx => ?_
  have hiff : x.brokerId = q.brokerId ↔ x = p := by
    rw [hq.brokerId]
    exact ⟨fun he => List.inj_on_of_nodup_map hd.brokers hx hp he, fun he => he ▸ rfl⟩
  simp only [hiff]

theorem mem_replaceOrder {x : PaperOrder} (hx : x ∈ (b.replaceOrder q).orders) : x = q ∨ x ∈ b.orders := by
  rw [orders_replaceOrder hd hp hq, List.mem_map] at hx
  obtain ⟨y, hy, rfl⟩ := hx
  by_cases he : y = p
  · exact .inl (if_pos he)
  · exact .inr (by rw [if_neg he]; exact hy)

theorem clientIds_replaceOrder : (b.replaceOrder q).orders.map (·.clientId) = b.orders.map (·.clientId) := by
  rw [orders_replaceOrder hd hp hq, List.map_map]
  refine List.map_congr_left fun x _ => ?_
  by_cases he : x = p
  · simp [he, hq.clientId]
  · simp [he]

theorem distinct_replaceOrder : (b.replaceOrder q).Distinct where
  clients := by rw [clientIds_replaceOrder hd hp hq]; exact hd.clients
  brokers := by
    rw [orders_replaceOrder hd hp hq, List.map_map]
    have hsame : (b.orders.map ((·.brokerId) ∘ fun x => if x = p then q else x)) = b.orders.map (·.brokerId) := by
      refine List.map_congr_left fun x _ => ?_
      by_cases he : x = p
      · simp [he, hq.brokerId]
      · simp [he]
    rw [hsame]
    exact hd.brokers

/-- After the rewrite the broker answers its client id with the new order, every other as before. -/
theorem byClient?_replaceOrder (k : String) :
    (b.replaceOrder q).byClient? k = if p.clientId = k then some q else b.byClient? k := by
  split
  · rename_i hk
    have hmem : q ∈ (b.replaceOrder q).orders := by
      rw [orders_replaceOrder hd hp hq]
      exact List.mem_map.2 ⟨p, hp, if_pos rfl⟩
    rw [← hk, ← hq.clientId]
    exact (distinct_replaceOrder hd hp hq).byClient? hmem
  · rename_i hk
    cases hf : b.byClient? k with
    | none =>
      rw [byClient?_eq_none_iff, Knows, ← clientIds_replaceOrder hd hp hq] at *
      exact hf
    | some x =>
      obtain ⟨hx, hxk⟩ := mem_of_byClient? hf
      have hne : x ≠ p := fun he => hk (he ▸ hxk)
      have hmem : x ∈ (b.replaceOrder q).orders := by
        rw [orders_replaceOrder hd hp hq]
        exact List.mem_map.2 ⟨x, hx, if_neg hne⟩
      rw [← hxk]
      exact (distinct_replaceOrder hd hp hq).byClient? hmem

end Rewrite

/-! ### The open orders -/

theorem mem_openOrders {b : Paper} {e : String × String} :
    e ∈ b.openOrders ↔ ∃ p ∈ b.orders, p.isOpen ∧ e = (p.clientId, p.brokerId) := by
  simp only [openOrders, List.mem_map, List.mem_filter]
  constructor
  · rintro ⟨p, ⟨hp, ho⟩, rfl⟩
    exact ⟨p, hp, ho, rfl⟩
  · rintro ⟨p, hp, ho, rfl⟩
    exact ⟨p, ⟨hp, ho⟩, rfl⟩

theorem lookup_filter_open :
    ∀ {l : List PaperOrder} {p : PaperOrder}, (l.map (·.clientId)).Nodup → p ∈ l → p.isOpen →
      ((l.filter (·.isOpen)).map fun o => (o.clientId, o.brokerId)).lookup p.clientId = some p.brokerId
  | [], _, _, hp, _ => absurd hp List.not_mem_nil
  | x :: xs, p, hnd, hp, ho => by
    rw [List.map_cons, List.nodup_cons] at hnd
    rcases List.mem_cons.1 hp with rfl | hp
    · simp [ho]
    · have hne : x.clientId ≠ p.clientId := fun he => hnd.1 (he ▸ List.mem_map_of_mem hp)
      have ih := lookup_filter_open hnd.2 hp ho
      by_cases hx : x.isOpen
      · simp [hx, List.lookup_cons, beq_eq_false_iff_ne.2 (Ne.symm hne), ih]
      · simp [hx, ih]

/-- The broker lists an open order of a distinct book under its client id, with its broker id. -/
theorem Distinct.lookup_openOrders {b : Paper} (hd : b.Distinct) {p : PaperOrder} (hp : p ∈ b.orders)
    (ho : p.isOpen) : b.openOrders.lookup p.clientId = some p.brokerId :=
  lookup_filter_open hd.clients hp ho

/-! ### What each call does -/

theorem takeFailure_keeps (b : Paper) : b.takeFailure.2.orders = b.orders ∧ b.takeFailure.2.fillSeq = b.fillSeq := by
  unfold takeFailure
  split <;> exact ⟨rfl, rfl⟩

theorem eq_of_takeFailure {b b' : Paper} (h : b.takeFailure = (none, b')) : b' = b := by
  unfold takeFailure at h
  split at h <;> cases h
  rfl

theorem keeps_of_takeFailure {b b' : Paper} {f : Option Fault} (h : b.takeFailure = (f, b')) :
    b'.orders = b.orders ∧ b'.fillSeq = b.fillSeq := by
  have hk := takeFailure_keeps b
  rwa [h] at hk

theorem openOrder_ok {b : Paper} {id : String} {p : PaperOrder} (h : b.openOrder id = .ok p) :
    b.byBroker? id = some p ∧ p.isOpen := by
  unfold openOrder at h
  split at h
  · cases h
  · rename_i x hx
    split at h
    · cases h
      exact ⟨hx, by assumption⟩
    · cases h

/-- A cancel either changes no order, or closes the open order of the broker id and says so. -/
theorem cancel_cases (b : Paper) (now : Instant) (tok : InvokeToken) (id : String) :
    (b.cancel now tok id).2.fillSeq = b.fillSeq ∧
      (((b.cancel now tok id).2.orders = b.orders ∧ ∃ f, (b.cancel now tok id).1 = .error f) ∨
        ∃ p, b.byBroker? id = some p ∧ p.isOpen ∧
          (b.cancel now tok id).1 = .ok { brokerId := p.brokerId, status := "canceled", stamped := now } ∧
          (b.cancel now tok id).2 = b.replaceOrder { p with status := .canceled }) := by
  unfold cancel
  split
  · exact ⟨rfl, .inl ⟨rfl, _, rfl⟩⟩
  · split
    · rename_i f b' h
      have hk := keeps_of_takeFailure h
      exact ⟨hk.2, .inl ⟨hk.1, _, rfl⟩⟩
    · rename_i b' h
      obtain rfl := eq_of_takeFailure h
      split
      · exact ⟨rfl, .inl ⟨rfl, _, rfl⟩⟩
      · rename_i p hp
        obtain ⟨hb, ho⟩ := openOrder_ok hp
        exact ⟨rfl, .inr ⟨p, hb, ho, rfl, rfl⟩⟩

/-- A replace either changes no order, or rewrites the open order of the broker id, which stays
open, and says so. -/
theorem replace_cases (b : Paper) (now : Instant) (tok : InvokeToken) (id : String) (qty : Int64)
    (limit : Option Int64) (tif : String) :
    (b.replace now tok id qty limit tif).2.fillSeq = b.fillSeq ∧
      (((b.replace now tok id qty limit tif).2.orders = b.orders ∧
          ∃ f, (b.replace now tok id qty limit tif).1 = .error f) ∨
        ∃ p q, b.byBroker? id = some p ∧ p.isOpen ∧ Rewrites p q ∧ q.isOpen ∧
          (b.replace now tok id qty limit tif).1 = .ok { brokerId := p.brokerId, status := "replaced", stamped := now } ∧
          (b.replace now tok id qty limit tif).2 = b.replaceOrder q) := by
  unfold replace
  split
  · exact ⟨rfl, .inl ⟨rfl, _, rfl⟩⟩
  · split
    · rename_i f b' h
      have hk := keeps_of_takeFailure h
      exact ⟨hk.2, .inl ⟨hk.1, _, rfl⟩⟩
    · rename_i b' h
      obtain rfl := eq_of_takeFailure h
      split
      · exact ⟨rfl, .inl ⟨rfl, _, rfl⟩⟩
      · rename_i p hp
        obtain ⟨hb, ho⟩ := openOrder_ok hp
        split
        · exact ⟨rfl, .inl ⟨rfl, _, rfl⟩⟩
        · refine ⟨rfl, .inr ⟨p, _, hb, ho, ?_, ?_, rfl, rfl⟩⟩
          · exact ⟨rfl, rfl, rfl, rfl⟩
          · exact ho

theorem lookup_keeps (b : Paper) (k : String) :
    (b.lookup k).2.orders = b.orders ∧ (b.lookup k).2.fillSeq = b.fillSeq := by
  unfold lookup
  split <;> exact ⟨rfl, rfl⟩

/-- An execution either changes nothing, or fills the open order of the client id, closing it
exactly when the report is final, and reports it under the next number. -/
theorem fill_cases (b : Paper) (k : String) (qty price fee : Int64) :
    ((∃ f, (b.fill k qty price fee).1 = .error f) ∧ (b.fill k qty price fee).2 = b) ∨
      ∃ p q r, b.byClient? k = some p ∧ p.isOpen ∧ Rewrites p q ∧ (q.isOpen ↔ r.final = false) ∧
        (b.fill k qty price fee).1 = .ok r ∧
        (b.fill k qty price fee).2 = { b.replaceOrder q with fillSeq := b.fillSeq + 1 } ∧
        r.seq = b.fillSeq + 1 ∧ Names r.messageId r.seq.toNat ∧ r.orderId = k ∧
        r.symbol = p.request.symbol ∧ r.side = p.request.side ∧ 0 < r.qty ∧ r.price = price ∧ r.fee = fee := by
  unfold fill
  split
  · exact .inl ⟨⟨_, rfl⟩, rfl⟩
  · rename_i p hp
    split
    · exact .inl ⟨⟨_, rfl⟩, rfl⟩
    · rename_i ho
      split
      · exact .inl ⟨⟨_, rfl⟩, rfl⟩
      · rename_i hq
        have hopen : p.isOpen = true := by simpa using ho
        have hpos : 0 < qty := Int64.not_le.1 (not_or.1 hq).1
        refine .inr ⟨p, _, _, hp, hopen, ?_, ?_, rfl, rfl, rfl, ⟨_, rfl⟩, (mem_of_byClient? hp).2, rfl, rfl, hpos,
          rfl, rfl⟩
        · exact ⟨rfl, rfl, rfl, rfl⟩
        -- an open order is new, and stays new unless this fill completes it
        have hnew : p.status = .new := by simpa [PaperOrder.isOpen] using hopen
        by_cases hf : p.filled + qty = p.request.quantity <;> simp [PaperOrder.isOpen, hf, hnew]

/-- A submit under a client id the broker does not know is refused, changing no order and issuing
no id, or opens a new order under the next issued id. -/
theorem submit_cases (b : Paper) (ids : IdSource) (now : Instant) (tok : InvokeToken) (req : Intent)
    (hn : ¬ b.Knows req.key) :
    (b.submit ids now tok req).2.1.fillSeq = b.fillSeq ∧
      (((∃ f, (b.submit ids now tok req).1 = .error f) ∧ (b.submit ids now tok req).2.1.orders = b.orders ∧
          (b.submit ids now tok req).2.2 = ids) ∨
        ((b.submit ids now tok req).1 = .ok { brokerId := Uuid.serial (ids.issued + 1), status := "new", stamped := now } ∧
          (b.submit ids now tok req).2.1.orders =
            b.orders ++ [{ brokerId := Uuid.serial (ids.issued + 1), clientId := req.key, request := req }] ∧
          (b.submit ids now tok req).2.2 = ⟨ids.issued + 1⟩)) := by
  unfold submit
  split
  · exact ⟨rfl, .inl ⟨⟨_, rfl⟩, rfl, rfl⟩⟩
  · split
    · rename_i f b' h
      have hk := keeps_of_takeFailure h
      exact ⟨hk.2, .inl ⟨⟨_, rfl⟩, hk.1, rfl⟩⟩
    · rename_i b' h
      obtain rfl := eq_of_takeFailure h
      dsimp only
      split
      · rename_i o hc
        exact absurd (knows_of_byClient? hc) hn
      · exact ⟨rfl, .inr ⟨rfl, rfl, rfl⟩⟩

end Paper

namespace Venue

/-- A submit through the gateway under a key the broker does not know is refused, changing no
order and issuing no id, or opens a new order under the key with the next issued id. -/
theorem submit_cases (v : Venue) (gs : Gates) (claim : Claim) (req : Intent) (hn : ¬ v.broker.Knows claim.key) :
    (v.submit gs claim req).2.store = v.store ∧ (v.submit gs claim req).2.now = v.now ∧
      (v.submit gs claim req).2.broker.fillSeq = v.broker.fillSeq ∧
      (((∃ f, (v.submit gs claim req).1 = .error f) ∧ (v.submit gs claim req).2.broker.orders = v.broker.orders ∧
          (v.submit gs claim req).2.ids = v.ids) ∨
        ∃ ack, (v.submit gs claim req).1 = .ok ack ∧ ack.brokerId = Uuid.serial (v.ids.issued + 1) ∧
          (v.submit gs claim req).2.broker.orders =
            v.broker.orders ++ [{ brokerId := ack.brokerId, clientId := claim.key, request := { req with key := claim.key } }] ∧
          (v.submit gs claim req).2.ids.issued = v.ids.issued + 1) := by
  unfold submit
  split
  · exact ⟨rfl, rfl, rfl, .inl ⟨⟨_, rfl⟩, rfl, rfl⟩⟩
  · split
    · exact ⟨rfl, rfl, rfl, .inl ⟨⟨_, rfl⟩, rfl, rfl⟩⟩
    · obtain ⟨hseq, hcases⟩ := v.broker.submit_cases v.ids v.now minted { req with key := claim.key } hn
      rcases hr : v.broker.submit v.ids v.now minted { req with key := claim.key } with ⟨r, broker, ids⟩
      rw [hr] at hseq hcases
      refine ⟨rfl, rfl, hseq, ?_⟩
      rcases hcases with ⟨⟨f, hf⟩, ho, hi⟩ | ⟨hok, ho, hi⟩
      · dsimp only at hf ho hi
        subst hf
        exact .inl ⟨⟨_, rfl⟩, ho, hi⟩
      · dsimp only at hok ho hi
        subst hok
        exact .inr ⟨_, rfl, rfl, ho, by rw [hi]⟩

end Venue

end TradeDesk
