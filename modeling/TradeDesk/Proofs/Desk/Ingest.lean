import TradeDesk.Proofs.Desk.Agrees
/-!
# Executions and their reports keep the agreement

The broker executes a fill of an open order, numbers its report one past the last, and closes the
order when the fill is final. The report joins the reports the desk is owed, at the end, and the
agreement holds again (`Agrees.fillAll`): the new number is above every one owed and below the
broker's count, and a live order whose broker order just closed has its final report owed.

Taking in owed reports, first ones first, settles them (`Agrees.ingest`). Their ids are new to
the inbox, which holds only ids the ledger has passed, so the inbox keeps them all; the ledger
takes the batch in the order of its numbers; and each report reaches its order as a fill event
under an id the order has not seen. A live order takes a fill of positive quantity, and is left
live only by a fill that does not close it, so an order whose final report is taken in is no
longer live. The feed is a walk over the batch (`Desk.Follows.feedFills`), with one step per report
(`Desk.Follows.feedOne`).
-/

namespace TradeDesk

namespace Order

variable {o o' : Order} {e : Event}

/-- The line of the transition rule for both kinds of fill, read as its two outcomes. -/
theorem step_fill_line
    (h : (if o.state = .filled then some o
      else if e.delta ≤ 0 ∨ !(o.state.live || o.state.pending) then none
      else some (o.addFill (e.kind = .fill) e.delta)) = some o') :
    (o.state = .filled ∧ o' = o) ∨
      (o.state ≠ .filled ∧ (o.state.live ∨ o.state.pending) ∧ o' = o.addFill (e.kind = .fill) e.delta) := by
  split at h
  · cases h
    exact .inl ⟨‹_›, rfl⟩
  · split at h
    · cases h
    · rename_i hf hd
      cases h
      exact .inr ⟨hf, live_or_pending (not_or.1 hd).2, rfl⟩

/-- A fill is taken as a late fill of a filled order, which changes nothing, or by adding it to a
live or pending order. -/
theorem step_fill {o' : Order} (hk : e.kind.isFill) (h : o.step e = some o') :
    (o.state = .filled ∧ o' = o) ∨
      (o.state ≠ .filled ∧ (o.state.live ∨ o.state.pending) ∧ o' = o.addFill (e.kind = .fill) e.delta) := by
  unfold step at h
  split at h
  next hk' => simp [hk', EventKind.isFill] at hk
  next => exact step_fill_line h
  next => exact step_fill_line h
  all_goals rename_i hk'; simp [hk', EventKind.isFill] at hk

/-- A fill that leaves an order live found it live, and did not close it. -/
theorem live_of_step_fill (hk : e.kind.isFill) (h : o.step e = some o') (hl : o'.state.live = true) :
    o.state.live = true ∧ e.kind ≠ .fill := by
  rcases step_fill hk h with ⟨hf, rfl⟩ | ⟨-, hlp, rfl⟩
  · rw [hf] at hl
    cases hl
  · obtain ⟨-, -, hcases⟩ := addFill_cases o (e.kind = .fill) e.delta
    rcases hcases with ⟨-, hs, -⟩ | ⟨-, hp, hs, -⟩ | ⟨hnc, hnp, -, -⟩
    · rw [hs] at hl
      cases hl
    · rw [hs, OrderState.live_eq_false_of_pending hp] at hl
      cases hl
    · -- neither closed nor pending: the order was live and the fill partial
      refine ⟨hlp.resolve_right hnp, fun hkf => hnc (.inl (decide_eq_true hkf))⟩

theorem step_fill_line_eq_none (hd : 0 < e.delta)
    (h : (if o.state = .filled then some o
      else if e.delta ≤ 0 ∨ !(o.state.live || o.state.pending) then none
      else some (o.addFill (e.kind = .fill) e.delta)) = none) :
    o.state.live = false := by
  split at h
  · cases h
  · split at h
    · rename_i hg
      have hna : (!(o.state.live || o.state.pending)) = true := hg.resolve_left (Int64.not_le.2 hd)
      simp only [Bool.not_eq_true', Bool.or_eq_false_iff] at hna
      exact hna.1
    · cases h

/-- A fill of positive quantity is refused only by an order that is not live. -/
theorem step_fill_eq_none (hk : e.kind.isFill) (hd : 0 < e.delta) (h : o.step e = none) :
    o.state.live = false := by
  unfold step at h
  split at h
  next hk' => simp [hk', EventKind.isFill] at hk
  next => exact step_fill_line_eq_none hd h
  next => exact step_fill_line_eq_none hd h
  all_goals rename_i hk'; simp [hk', EventKind.isFill] at hk

theorem apply_fill_eq_error {m : String} {f : Fault} (hk : e.kind.isFill) (hd : 0 < e.delta)
    (h : o.apply e m = .error f) : o.state.live = false := by
  unfold apply at h
  split at h
  · cases h
  · split at h
    · rename_i hs
      exact step_fill_eq_none hk hd hs
    · cases h

/-- A fill under an id a live order has not seen leaves the order live only when it found it live
and did not close it. -/
theorem live_of_apply_fill {m : String} (hk : e.kind.isFill) (hfresh : o.state.live = true → m ∉ o.seen)
    (h : o.apply e m = .ok o') (hl : o'.state.live = true) : o.state.live = true ∧ e.kind ≠ .fill := by
  rcases apply_eq_ok h with ⟨-, hseen, rfl⟩ | ⟨o₁, hs, rfl⟩
  · exact absurd hseen (hfresh hl)
  · have hl₁ : o₁.state.live = true := by
      split at hl <;> exact hl
    exact live_of_step_fill hk hs hl₁

/-- An event that leaves an order not terminal found it not terminal, and adds at most its own id
to the ids the order has seen. -/
theorem seen_of_apply {m : String} (h : o.apply e m = .ok o') (hnt : o'.state.terminal = false) :
    o.state.terminal = false ∧ ∀ x ∈ o'.seen, x ∈ o.seen ∨ x = m := by
  refine ⟨?_, ?_⟩
  · cases ht : o.state.terminal
    · rfl
    · rw [(apply_of_terminal ht h).1, ht] at hnt
      cases hnt
  · rcases apply_eq_ok h with ⟨-, -, rfl⟩ | ⟨o₁, hs, rfl⟩
    · exact fun x hx => .inl hx
    · split
      · exact fun x hx => .inl (seen_step hs ▸ hx)
      · intro x hx
        rw [List.mem_append, List.mem_singleton, seen_step hs] at hx
        exact hx

end Order

namespace BrokerFill

theorem isFill_event (f : BrokerFill) : f.event.kind.isFill := by
  unfold event
  split <;> rfl

/-- A report whose event does not close its order is not final. -/
theorem final_of_event {f : BrokerFill} (h : f.event.kind ≠ .fill) : f.final = false := by
  cases hf : f.final
  · rfl
  · simp [event, hf] at h

/-- A report the ledger takes: a symbol, a known side, a positive quantity, and a price and fee
that are not negative. -/
theorem check_tagged {f : BrokerFill} (hs : Text.isBlank f.symbol = false) (hside : f.side.valid = true)
    (hq : 0 < f.qty) (hp : 0 ≤ f.price) (hfee : 0 ≤ f.fee) : f.tagged.fill.check = none := by
  simp [tagged, Fill.check, hs, hside, Int64.not_le.2 hq, Int64.not_lt.2 hp, Int64.not_lt.2 hfee]

end BrokerFill

/-! ### Following the broker -/

namespace Desk.Follows

variable {d : Desk} {b : Paper} {owed : List BrokerFill} {P : String → Prop}

/-- The first report owed can be dropped once its order, if live, does not rest on it. -/
theorem shrink {f : BrokerFill} (h : d.Follows b (f :: owed) P)
    (hf : ∀ o, d.order? f.orderId = some o → o.state.live = true → f.final = false) : d.Follows b owed P := by
  refine { h with live := fun k o hk hl => ?_ }
  obtain ⟨p, hp, hid, hopen⟩ := h.live k o hk hl
  refine ⟨p, hp, hid, hopen.imp_right fun ⟨g, hg, hgk, hgf⟩ => ?_⟩
  rcases List.mem_cons.1 hg with rfl | hg
  · subst hgk
    rw [hf o hk hl] at hgf
    cases hgf
  · exact ⟨g, hg, hgk, hgf⟩

/-- Halting an order that is not live keeps the desk following the broker. -/
theorem halt (h : d.Follows b owed P) {k : String} {o : Order} (ho : d.order? k = some o)
    (hl : o.state.live = false) (reason : String) :
    ({ d with halted := (k, reason) :: d.halted } : Desk).Follows b owed P := by
  refine { h with halted := fun k' hk' => ?_ }
  by_cases he : k' = k
  · subst he
    exact ⟨o, ho, hl⟩
  · have hbeq : (k' == k) = false := beq_eq_false_iff_ne.2 he
    have hk'' : (d.haltReason? k').isSome := by
      simpa only [Desk.haltReason?, List.lookup_cons, hbeq] using hk'
    exact h.halted k' hk''

end Desk.Follows

/-- Feeding reports walks them in order: the rest is fed to the desk the first one left, whether
its order took it, refused it or is not tracked. -/
theorem Desk.feedFills_cons (d : Desk) (f : BrokerFill) (fs : List BrokerFill) :
    (d.feedFills (f :: fs)).2 = ((d.applyEventCore f.orderId f.event f.messageId).2.feedFills fs).2 := by
  simp only [Desk.feedFills]
  split
  · rename_i hn
    obtain ⟨_, he⟩ := @Desk.applyEventCore_of_idle d f.orderId f.event f.messageId
      (.inl (Option.isNone_iff_eq_none.1 hn))
    rw [he]
  · split <;> rename_i heq <;> rw [heq]

theorem BrokerFill.event_ne_replaceAck (f : BrokerFill) : f.event.kind ≠ .replaceAck := by
  unfold BrokerFill.event
  split <;> simp

namespace Desk.Follows

variable {d : Desk} {b : Paper} {owed : List BrokerFill} {P : String → Prop}

/-- **One report fed to its order.** A report of positive quantity, under a passed id that no
order that is not terminal has seen, leaves the desk following the broker with the report no
longer owed: the order takes it (and is left live only if the report is not final), refuses it
(being not live, it is halted), or is halted or not tracked, and nothing changes. Each order that
is not terminal afterwards was not terminal before, and has seen at most the report's id more. -/
theorem feedOne {f : BrokerFill} (h : d.Follows b (f :: owed) P) (hs : d.ids.Sorted) (hP : P f.messageId)
    (hq : 0 < f.qty) (hfresh : ∀ k o, d.order? k = some o → o.state.terminal = false → f.messageId ∉ o.seen) :
    (d.applyEventCore f.orderId f.event f.messageId).2.Follows b owed P ∧
      (d.applyEventCore f.orderId f.event f.messageId).2.ids.Sorted ∧
      ∀ k o', (d.applyEventCore f.orderId f.event f.messageId).2.order? k = some o' → o'.state.terminal = false →
        ∃ o, d.order? k = some o ∧ o.state.terminal = false ∧ ∀ x ∈ o'.seen, x ∈ o.seen ∨ x = f.messageId := by
  have hsame : ∀ fa, d.applyEventCore f.orderId f.event f.messageId = (.error fa, d) →
      (∀ o, d.order? f.orderId = some o → o.state.live = false) →
      (d.applyEventCore f.orderId f.event f.messageId).2.Follows b owed P ∧
        (d.applyEventCore f.orderId f.event f.messageId).2.ids.Sorted ∧
        ∀ k o', (d.applyEventCore f.orderId f.event f.messageId).2.order? k = some o' → o'.state.terminal = false →
          ∃ o, d.order? k = some o ∧ o.state.terminal = false ∧ ∀ x ∈ o'.seen, x ∈ o.seen ∨ x = f.messageId := by
    intro fa he hnl
    rw [he]
    refine ⟨h.shrink fun o ho hl => ?_, hs, fun k o' ho' hnt => ⟨o', ho', hnt, fun x hx => .inl hx⟩⟩
    rw [hnl o ho] at hl
    cases hl
  cases ho : d.order? f.orderId with
  | none =>
    obtain ⟨fa, he⟩ := @Desk.applyEventCore_of_idle d f.orderId f.event f.messageId (.inl ho)
    exact hsame fa he fun o ho' => by rw [ho] at ho'; cases ho'
  | some o =>
    cases hh : d.haltReason? f.orderId with
    | some r =>
      obtain ⟨fa, he⟩ := @Desk.applyEventCore_of_idle d f.orderId f.event f.messageId (.inr (by rw [hh]; rfl))
      obtain ⟨o₁, ho₁, hl₁⟩ := h.halted f.orderId (by rw [hh]; rfl)
      rw [ho] at ho₁
      cases ho₁
      exact hsame fa he fun o' ho' => by rw [ho] at ho'; cases ho'; exact hl₁
    | none =>
      cases ha : o.apply f.event f.messageId with
      | error fa =>
        have hnl := Order.apply_fill_eq_error f.isFill_event hq ha
        rw [Desk.applyEventCore_of_refused ho hh ha]
        refine ⟨(h.shrink fun o' ho' hl => ?_).halt ho hnl _, hs,
          fun k o' ho' hnt => ⟨o', ho', hnt, fun x hx => .inl hx⟩⟩
        rw [ho] at ho'
        cases ho'
        rw [hnl] at hl
        cases hl
      | ok o' =>
        have hnt_of_live : o.state.live = true → o.state.terminal = false := fun hl => by
          cases ht : o.state.terminal
          · rfl
          · rw [(OrderState.not_live_of_terminal ht).1] at hl
            cases hl
        have hlive : o'.state.live = true → o.state.live = true ∧ f.event.kind ≠ .fill :=
          Order.live_of_apply_fill f.isFill_event (fun hl => hfresh _ o ho (hnt_of_live hl)) ha
        have hid : o'.id = f.orderId := (Order.apply_keeps ha).1.trans (Desk.id_of_order? ho)
        obtain ⟨d', he, hT⟩ := Desk.applyEventCore_of_apply ho hh ha f.event_ne_replaceAck
        rw [he]
        have hf' := h.took hs hT hid hh
          (fun ht => (OrderState.not_live_of_terminal (Bool.and_eq_true_iff.1 ht).1).1)
          (fun hl => h.live _ o ho (hlive hl).1)
          (fun hnt x hx => by
            obtain ⟨hnt₀, hsub⟩ := Order.seen_of_apply ha hnt
            rcases hsub x hx with hx | rfl
            · exact h.seen _ o ho hnt₀ x hx
            · exact hP)
        refine ⟨hf'.shrink fun o'' ho'' hl => ?_, ?_, fun k o'' ho'' hnt => ?_⟩
        · rw [hT.order?_eq hid, if_pos rfl] at ho''
          cases ho''
          exact BrokerFill.final_of_event (hlive hl).2
        · rw [hT.ids]
          split
          · exact hs.deregister _
          · exact hs
        · rw [hT.order?_eq hid] at ho''
          split at ho''
          · rename_i hk
            subst hk
            cases ho''
            obtain ⟨hnt₀, hsub⟩ := Order.seen_of_apply ha hnt
            exact ⟨o, ho, hnt₀, hsub⟩
          · exact ⟨o'', ho'', hnt, fun x hx => .inl hx⟩

/-- **Reports fed in order.** Reports of positive quantity, under distinct passed ids that no order
that is not terminal has seen, fed to the desk's orders, leave it following the broker with them
no longer owed. -/
theorem feedFills : ∀ (fs : List BrokerFill) (d : Desk), d.Follows b (fs ++ owed) P → d.ids.Sorted →
    (∀ f ∈ fs, P f.messageId ∧ 0 < f.qty) → (fs.map (·.messageId)).Nodup →
    (∀ f ∈ fs, ∀ k o, d.order? k = some o → o.state.terminal = false → f.messageId ∉ o.seen) →
    (d.feedFills fs).2.Follows b owed P ∧ (d.feedFills fs).2.ids.Sorted
  | [], _, h, hs, _, _, _ => ⟨h, hs⟩
  | f :: fs, d, h, hs, hf, hnd, hfresh => by
    obtain ⟨hP, hq⟩ := hf f List.mem_cons_self
    obtain ⟨h', hs', hseen⟩ := feedOne h hs hP hq (hfresh f List.mem_cons_self)
    rw [List.map_cons, List.nodup_cons] at hnd
    rw [Desk.feedFills_cons]
    refine feedFills fs _ h' hs' (fun g hg => hf g (List.mem_cons_of_mem f hg)) hnd.2 fun g hg k o' ho' hnt hmem => ?_
    -- an order seen by the next reports' ids only if it had seen them before, or it is this one's
    obtain ⟨o, ho, hnt₀, hsub⟩ := hseen k o' ho' hnt
    rcases hsub _ hmem with hx | hx
    · exact hfresh g (List.mem_cons_of_mem f hg) k o ho hnt₀ hx
    · exact hnd.1 (hx ▸ List.mem_map_of_mem hg)

end Desk.Follows

/-! ### Executions -/

theorem UInt64.toNat_add_one_of_lt_size {n : UInt64} (h : n.toNat + 1 < UInt64.size) : (n + 1).toNat = n.toNat + 1 := by
  rw [UInt64.toNat_add, UInt64.toNat_one]
  exact Nat.mod_eq_of_lt h

theorem Paper.fillSeq_fill_le (b : Paper) (k : String) (qty price fee : Int64) (hroom : b.fillSeq.toNat + 1 < UInt64.size) :
    (b.fill k qty price fee).2.fillSeq.toNat ≤ b.fillSeq.toNat + 1 := by
  rcases fill_cases b k qty price fee with ⟨-, hb⟩ | ⟨p, q, r, -, -, -, -, -, hb, -⟩
  · rw [hb]
    omega
  · rw [hb]
    show (b.fillSeq + 1).toNat ≤ _
    rw [UInt64.toNat_add_one_of_lt_size hroom]

theorem executed_cons (r : Except Fault BrokerFill) (rs : List (Except Fault BrokerFill)) :
    executed (r :: rs) = executed [r] ++ executed rs := by
  cases r <;> rfl

namespace Agrees

variable {d : Desk} {v : Venue} {owed : List BrokerFill}

/-- A report numbered past the broker's count, on a book with the same orders and that count
raised to its number, joins the reports owed. -/
theorem owe (h : Agrees (d, v) owed) {b : Paper} (hb : b.orders = v.broker.orders) {r : BrokerFill}
    (hseq : b.fillSeq = r.seq) (hlt : v.broker.fillSeq < r.seq) (hv : r.tagged.fill.check = none)
    (hname : Paper.Names r.messageId r.seq.toNat) : Agrees (d, { v with broker := b }) (owed ++ [r]) := by
  have hr : ∀ f ∈ owed ++ [r], f ∈ owed ∨ f = r := fun f hf => by
    simpa only [List.mem_append, List.mem_singleton] using hf
  refine
    { toFollows := (h.toFollows.of_orders hb).grow fun f hf => List.mem_append_left _ hf
      books := h.books.congr hb (Nat.le_refl _) h.books.rows
      valid := fun f hf => ?_
      increasing := List.pairwise_append.2 ⟨h.increasing, List.pairwise_singleton _ _, fun a ha c hc => ?_⟩
      above := fun f hf n hn => ?_
      made := fun f hf => ?_
      counted := fun n hn => hseq ▸ UInt64.le_of_lt (UInt64.lt_of_le_of_lt (h.counted n hn) hlt)
      named := fun f hf => ?_
      inbox := h.inbox }
  · rcases hr f hf with hf | rfl
    · exact h.valid f hf
    · exact hv
  · rw [List.mem_singleton] at hc
    subst hc
    exact UInt64.lt_of_le_of_lt (h.made a ha) hlt
  · rcases hr f hf with hf | rfl
    · exact h.above f hf n hn
    · exact UInt64.lt_of_le_of_lt (h.counted n hn) hlt
  · rw [hseq]
    rcases hr f hf with hf | rfl
    · exact UInt64.le_of_lt (UInt64.lt_of_le_of_lt (h.made f hf) hlt)
    · exact UInt64.le_refl _
  · rcases hr f hf with hf | rfl
    · exact h.named f hf
    · exact hname

/-- **One execution keeps the agreement**, with its report, if any, owed. The report is numbered
one past the broker's count (which has room for it), passes the ledger's checks because the
order's intent is tradable and the price and fee are not negative, and when it closes the broker
order of a live order it is the final report owed for that order. -/
theorem fill (h : Agrees (d, v) owed) (k : String) (qty price fee : Int64) (hp : 0 ≤ price) (hf : 0 ≤ fee)
    (hroom : v.broker.fillSeq.toNat + 1 < UInt64.size) :
    Agrees (d, { v with broker := (v.broker.fill k qty price fee).2 })
      (owed ++ executed [(v.broker.fill k qty price fee).1]) := by
  rcases Paper.fill_cases v.broker k qty price fee with
    ⟨⟨e, he⟩, hb⟩ | ⟨p, q, r, hpk, -, hq, hqr, hr, hb, hseq, hname, hk, hsym, hside, hqty, hprice, hfee⟩
  · rw [he, hb, show executed [(.error e : Except Fault BrokerFill)] = [] from rfl, List.append_nil]
    exact h
  · rw [hr, hb, show executed [(.ok r : Except Fault BrokerFill)] = [r] from rfl]
    have hmem := Paper.mem_of_byClient? hpk
    have hlt : v.broker.fillSeq < r.seq := by
      rw [hseq, UInt64.lt_iff_toNat_lt, UInt64.toNat_add_one_of_lt_size hroom]
      omega
    have hreq := h.books.requests p hmem.1
    have hvalid : r.tagged.fill.check = none :=
      BrokerFill.check_tagged (hsym ▸ hreq.1) (hside ▸ hreq.2) hqty (hprice ▸ hp) (hfee ▸ hf)
    have h₁ : Agrees (d, { v with broker := { v.broker with fillSeq := v.broker.fillSeq + 1 } }) (owed ++ [r]) :=
      h.owe (show ({ v.broker with fillSeq := v.broker.fillSeq + 1 } : Paper).orders = v.broker.orders from rfl)
        hseq.symm hlt hvalid hname
    refine h₁.rewrite hmem.1 hq rfl rfl fun o _ _ => ?_
    cases hqo : q.isOpen
    · have hfin : r.final = true := by
        cases hrf : r.final
        · exact absurd (hqr.2 hrf) (by rw [hqo]; decide)
        · rfl
      exact .inr ⟨r, List.mem_append_right _ (List.mem_singleton_self _), hk.trans hmem.2.symm, hfin⟩
    · exact .inl rfl

/-- **Executions keep the agreement**, with their reports owed in the order the broker made them,
when their prices and fees are not negative and the broker's count has room for them. -/
theorem fillAll : ∀ (fills : List FillOrder) (v : Venue) (owed : List BrokerFill), Agrees (d, v) owed →
    (∀ f ∈ fills, 0 ≤ f.price ∧ 0 ≤ f.fee) → v.broker.fillSeq.toNat + fills.length < UInt64.size →
    Agrees (d, (v.fillAll fills).2) (owed ++ executed (v.fillAll fills).1)
  | [], v, owed, h, _, _ => by
    rw [show executed (v.fillAll []).1 = [] from rfl, List.append_nil]
    exact h
  | f :: rest, v, owed, h, hpos, hroom => by
    obtain ⟨hp, hf⟩ := hpos f List.mem_cons_self
    have hroom₁ : v.broker.fillSeq.toNat + 1 < UInt64.size := by
      simp only [List.length_cons] at hroom
      omega
    have h₁ := h.fill f.clientId f.qty f.price f.fee hp hf hroom₁
    have hle := Paper.fillSeq_fill_le v.broker f.clientId f.qty f.price f.fee hroom₁
    have h₂ := fillAll rest _ _ h₁ (fun g hg => hpos g (List.mem_cons_of_mem f hg)) (by
      simp only [List.length_cons] at hroom
      show (v.broker.fill f.clientId f.qty f.price f.fee).2.fillSeq.toNat + rest.length < UInt64.size
      omega)
    show Agrees (d, _) (owed ++ executed ((v.broker.fill f.clientId f.qty f.price f.fee).1 :: _))
    rw [executed_cons, ← List.append_assoc]
    exact h₂

end Agrees

/-! ### Taking reports in -/

/-- An id passed by a ledger is passed by one whose last number is at least as high. -/
theorem Ledger.Passed.mono {l l' : Ledger} {m : String} (h : l.Passed m)
    (hl : ∀ n ∈ l.lastSeq, ∃ n', l'.lastSeq = some n' ∧ n ≤ n') : l'.Passed m := by
  obtain ⟨s, n, hs, hn, hle⟩ := h
  obtain ⟨n', hn', hle'⟩ := hl n hn
  exact ⟨s, n', hs, hn', Nat.le_trans hle (UInt64.le_iff_toNat_le.1 hle')⟩

/-- A report id is never blank: it holds a dash. -/
theorem Paper.Names.isBlank_eq_false {m : String} {n : Nat} (h : Paper.Names m n) : Text.isBlank m = false := by
  obtain ⟨x, rfl⟩ := h
  simp [Text.isBlank, List.all_eq_false]
  exact fun _ hdash => absurd hdash (by decide)

theorem BrokerFill.sortCanonical_of_increasing {fs : List BrokerFill} (h : fs.Pairwise (·.seq < ·.seq)) :
    sortCanonical fs = fs := by
  rw [sortCanonical_eq]
  exact List.mergeSort_of_pairwise (h.imp fun {a b} hlt => by
    rw [TaggedFill.canonical_of_seq_lt (show a.tagged.seq < b.tagged.seq from hlt)]
    rfl)

theorem Store.exists_of_mem_markAppliedAll {s : Store} {now : Instant} {ids : List String} {r : InboxRow}
    (h : r ∈ (s.markAppliedAll now ids).inbox) : ∃ r₀ ∈ s.inbox, r.messageId = r₀.messageId := by
  rw [markAppliedAll_inbox, List.mem_map] at h
  obtain ⟨r₀, hr₀, rfl⟩ := h
  refine ⟨r₀, hr₀, ?_⟩
  split <;> rfl

namespace Venue

/-- Reports with distinct ids the inbox has not seen are all new to it. -/
theorem recordFills_of_new (runId : String) :
    ∀ (fs : List BrokerFill) (v : Venue), (fs.map (·.messageId)).Nodup →
      (∀ f ∈ fs, f.messageId ∉ v.store.inbox.map (·.messageId)) → (v.recordFills runId fs).1 = fs
  | [], _, _, _ => rfl
  | f :: rest, v, hnd, hnew => by
    rw [List.map_cons, List.nodup_cons] at hnd
    have hm := hnew f List.mem_cons_self
    set v₁ : Venue := { v with store := (v.store.insertInbox v.now runId f.messageId f.encode).2 }
    have hstep : (v.recordFills runId (f :: rest)).1 = f :: (v₁.recordFills runId rest).1 := by
      simp only [Venue.recordFills, v₁, Store.insertInbox_of_new hm]
      rfl
    rw [hstep, recordFills_of_new runId rest v₁ hnd.2 fun g hg hmem => ?_]
    simp only [v₁, Store.insertInbox_of_new hm, List.map_append, List.map_cons, List.map_nil, List.mem_append,
      List.mem_singleton] at hmem
    rcases hmem with hmem | he
    · exact hnew g (List.mem_cons_of_mem f hg) hmem
    · exact hnd.1 (he ▸ List.mem_map_of_mem hg)

theorem ids_recordFills (v : Venue) (runId : String) (fills : List BrokerFill) :
    (v.recordFills runId fills).2.2.ids = v.ids := by
  induction fills generalizing v with
  | nil => rfl
  | cons f rest ih =>
    unfold recordFills
    dsimp only
    split <;> exact ih _

theorem forgetAll_frame (orderIds : List String) (v : Venue) :
    (orderIds.foldl Venue.forget v).broker = v.broker ∧ (orderIds.foldl Venue.forget v).ids = v.ids := by
  induction orderIds generalizing v with
  | nil => exact ⟨rfl, rfl⟩
  | cons id rest ih => exact ih (v.forget id)

end Venue

theorem BrokerFill.qty_pos_of_check {f : BrokerFill} (h : f.tagged.fill.check = none) : 0 < f.qty := by
  unfold Fill.check at h
  split at h
  · cases h
  split at h
  · cases h
  split at h
  · cases h
  rename_i hq
  exact Int64.not_le.1 hq

/-- What applying an accepted batch does: its orders are fed with the ledger updated, the orders
that closed are forgotten, and the batch's rows are marked applied. -/
theorem applyFills_of_accepted {d : Desk} {v : Venue} {fills : List BrokerFill} {l' : Ledger} (hne : fills ≠ [])
    (hl : d.ledger.applyCanonical (fills.map BrokerFill.tagged) = .ok l') :
    let fed := ({ d with ledger := l' } : Desk).feedFills (BrokerFill.sortCanonical fills)
    let v₂ := fed.1.foldl Venue.forget v
    applyFills (d, v) fills =
      (.ok fills.length, (fed.2.refreshLimiter, { v₂ with store := v₂.store.markAppliedAll v₂.now (fills.map (·.messageId)) })) := by
  intro fed v₂
  unfold applyFills
  dsimp only
  rw [if_neg (by simpa [List.isEmpty_iff] using hne), hl]

theorem Store.Tradable.forgetAll (orderIds : List String) :
    ∀ v : Venue, v.store.Tradable → (orderIds.foldl Venue.forget v).store.Tradable := by
  induction orderIds with
  | nil => exact fun _ h => h
  | cons id rest ih => exact fun v h => ih (v.forget id) (h.forget v rfl id)

namespace Agrees

variable {w : World} {owed : List BrokerFill}

/-- The ledger has not passed the id of a report owed: the id names the report's number, which
is above the ledger's last. -/
theorem not_passed (h : Agrees w owed) {f : BrokerFill} (hf : f ∈ owed) : ¬ w.1.ledger.Passed f.messageId := by
  rintro ⟨s, n, hs, hn, hle⟩
  have hsf := Paper.Names.unique hs (h.named f hf)
  have hlt := UInt64.lt_iff_toNat_lt.1 (h.above f hf n hn)
  omega

/-- Reports owed have distinct ids, since their numbers differ. -/
theorem nodup_messageIds (h : Agrees w owed) : (owed.map (·.messageId)).Nodup := by
  refine List.pairwise_map.2 (h.increasing.imp_of_mem fun {a b} ha hb hlt he => ?_)
  have hname : Paper.Names a.messageId b.seq.toNat := by
    rw [he]
    exact h.named b hb
  have heq := Paper.Names.unique (h.named a ha) hname
  have := UInt64.lt_iff_toNat_lt.1 hlt
  omega

/-- The ledger takes the first reports owed as one batch, in their order, and its last number
becomes the last of theirs. -/
theorem accepted {fs rest : List BrokerFill} (h : Agrees w (fs ++ rest)) :
    ∃ l', w.1.ledger.applyCanonical (fs.map BrokerFill.tagged) = .ok l' ∧
      l'.lastSeq = ((fs.map BrokerFill.tagged).getLast?.map (·.seq)).or w.1.ledger.lastSeq := by
  have hinc : Ledger.Increasing (fs.map BrokerFill.tagged) := List.pairwise_map.2 (List.pairwise_append.1 h.increasing).1
  have hsort : TaggedFill.sortCanonical (fs.map BrokerFill.tagged) = fs.map BrokerFill.tagged :=
    Ledger.sortCanonical_of_perm hinc (List.Perm.refl _)
  have hcheck : Ledger.checkBatch w.1.ledger.lastSeq (fs.map BrokerFill.tagged) = none := by
    refine Ledger.checkBatch_eq_none_iff.2 ⟨fun tf htf => ?_, hinc, fun tf htf n hn => ?_⟩
    · obtain ⟨f, hf, rfl⟩ := List.mem_map.1 htf
      exact h.valid f (List.mem_append_left _ hf)
    · obtain ⟨f, hf, rfl⟩ := List.mem_map.1 htf
      exact h.above f (List.mem_append_left _ hf) n hn
  refine ⟨_, Ledger.applyCanonical_eq_ok.2 ⟨by rw [hsort]; exact hcheck, rfl⟩, ?_⟩
  rw [hsort]
  rfl

/-- **An accepted batch of the first reports owed, recorded in the inbox, settles them.** The
venue `v₁` is the venue after recording: the same broker and ids, the same outbox, and an inbox
that gained rows with the batch's ids only. -/
theorem applied {d : Desk} {v v₁ : Venue} {fs rest : List BrokerFill} (h : Agrees (d, v) (fs ++ rest))
    (hs : d.ids.Sorted) (hne : fs ≠ []) (hb : v₁.broker = v.broker) (hi : v₁.ids = v.ids)
    (ho : v₁.store.outbox = v.store.outbox)
    (hin : ∀ r ∈ v₁.store.inbox, r ∈ v.store.inbox ∨ r.messageId ∈ fs.map (·.messageId)) :
    Agrees (applyFills (d, v₁) fs).2 rest := by
  obtain ⟨l', hl, hlast⟩ := h.accepted
  obtain ⟨last, hlastmem⟩ : ∃ last, fs.getLast? = some last := Option.isSome_iff_exists.1
    (by simpa [List.getLast?_eq_none_iff] using hne)
  have hl'last : l'.lastSeq = some last.seq := by
    rw [hlast, List.getLast?_map, hlastmem]
    rfl
  have hlastin : last ∈ fs := List.mem_of_getLast? hlastmem
  have hsplit := List.pairwise_append.1 h.increasing
  -- every report of the batch is passed by the new ledger, and so is every id passed before
  have hpassed : ∀ f ∈ fs, l'.Passed f.messageId := fun f hf => by
    have hle := Ledger.Increasing.le_last (List.pairwise_map.2 hsplit.1) f.tagged (List.mem_map_of_mem hf) last.seq
      (by rw [List.getLast?_map, hlastmem]; rfl)
    exact ⟨f.seq.toNat, last.seq, h.named f (List.mem_append_left _ hf), hl'last, UInt64.le_iff_toNat_le.1 hle⟩
  have hmono : ∀ m, d.ledger.Passed m → l'.Passed m := fun m hm =>
    hm.mono fun n hn => ⟨last.seq, hl'last, UInt64.le_of_lt (h.above last (List.mem_append_left _ hlastin) n hn)⟩
  have hnd : (fs.map (·.messageId)).Nodup := by
    have := h.nodup_messageIds
    rw [List.map_append] at this
    exact this.of_append_left
  have hfollow : ({ d with ledger := l' } : Desk).Follows v₁.broker (fs ++ rest) l'.Passed := by
    rw [hb]
    exact (h.toFollows.mono hmono).congr rfl rfl rfl
  obtain ⟨hF, -⟩ := Desk.Follows.feedFills fs _ hfollow hs
    (fun f hf => ⟨hpassed f hf, BrokerFill.qty_pos_of_check (h.valid f (List.mem_append_left _ hf))⟩) hnd
    (fun f hf k o ho hnt hmem => h.not_passed (List.mem_append_left _ hf) (h.seen k o ho hnt _ hmem))
  rw [applyFills_of_accepted hne hl]
  dsimp only
  rw [BrokerFill.sortCanonical_of_increasing hsplit.1]
  set fed := ({ d with ledger := l' } : Desk).feedFills fs
  set v₂ := fed.1.foldl Venue.forget v₁
  have hledger : fed.2.refreshLimiter.ledger = l' := (books_feedFills _ fs).1
  obtain ⟨hb₂, hi₂⟩ := Venue.forgetAll_frame fed.1 v₁
  have hrows : v₂.store.Tradable := Store.Tradable.forgetAll fed.1 v₁ (h.books.rows.of_outbox ho)
  refine
    { toFollows := ?_
      books := h.books.congr (by simp only [v₂, hb₂, hb]) (by simp only [v₂, hi₂, hi]; exact Nat.le_refl _)
        (hrows.of_outbox (Store.outbox_markAppliedAll _ _ _))
      valid := fun f hf => h.valid f (List.mem_append_right _ hf)
      increasing := hsplit.2.1
      above := fun f hf n hn => ?_
      made := fun f hf => by
        simp only [v₂, hb₂, hb]
        exact h.made f (List.mem_append_right _ hf)
      counted := fun n hn => ?_
      named := fun f hf => h.named f (List.mem_append_right _ hf)
      inbox := fun r hr => ?_ }
  · rw [hledger]
    simp only [v₂, hb₂] at hF ⊢
    exact hF.congr rfl rfl rfl
  · rw [hledger, hl'last] at hn
    cases hn
    exact hsplit.2.2 last hlastin f hf
  · rw [hledger, hl'last] at hn
    cases hn
    simp only [v₂, hb₂, hb]
    exact h.made last (List.mem_append_left _ hlastin)
  · rw [hledger]
    obtain ⟨r₀, hr₀, hid⟩ := Store.exists_of_mem_markAppliedAll hr
    rw [(venue_forgetAll fed.1 v₁).2] at hr₀
    rw [hid]
    rcases hin r₀ hr₀ with hold | hnew
    · exact hmono _ (h.inbox r₀ hold)
    · obtain ⟨f, hf, he⟩ := List.mem_map.1 hnew
      rw [← he]
      exact hpassed f hf

/-- **Taking in the first reports owed settles them.** Their ids are new to the inbox, so the
inbox records them all, and the ledger accepts them as one batch. -/
theorem ingest {d : Desk} {v : Venue} {fs rest : List BrokerFill} (h : Agrees (d, v) (fs ++ rest))
    (hs : d.ids.Sorted) : Agrees (ingestFills (d, v) fs).2 rest := by
  by_cases hne : fs = []
  · subst hne
    exact h
  have hnd : (fs.map (·.messageId)).Nodup := by
    have := h.nodup_messageIds
    rw [List.map_append] at this
    exact this.of_append_left
  have hblank : (fs.any fun f => Text.isBlank f.messageId) = false :=
    List.any_eq_false.2 fun f hf => by rw [(h.named f (List.mem_append_left _ hf)).isBlank_eq_false]; decide
  -- the inbox has not seen their ids: it holds only ids the ledger passed
  have hnew : ∀ f ∈ fs, f.messageId ∉ v.store.inbox.map (·.messageId) := fun f hf hmem => by
    obtain ⟨r, hr, he⟩ := List.mem_map.1 hmem
    exact h.not_passed (List.mem_append_left _ hf) (he ▸ h.inbox r hr)
  have hrec := Venue.recordFills_of_new d.runId fs v hnd hnew
  obtain ⟨rows, hinbox, hrows, -, -, -⟩ := recordFills_spec v d.runId fs
  obtain ⟨hout, hbr⟩ := Venue.recordFills_frame v d.runId fs
  have hin : ∀ r ∈ (v.recordFills d.runId fs).2.2.store.inbox, r ∈ v.store.inbox ∨ r.messageId ∈ fs.map (·.messageId) := by
    intro r hr
    rw [hinbox, List.mem_append] at hr
    refine hr.imp_right fun hr => ?_
    rw [← hrec, ← (ids_texts_of_rows (recorded_rows hrows).1).1]
    exact List.mem_map_of_mem hr
  have happ := h.applied hs hne hbr (Venue.ids_recordFills v d.runId fs) hout hin
  obtain ⟨l', hl, -⟩ := h.accepted
  have hl' : d.ledger.applyCanonical (fs.map BrokerFill.tagged) = .ok l' := hl
  unfold ingestFills
  rw [if_neg (by rw [hblank]; decide)]
  dsimp only
  generalize v.recordFills d.runId fs = R at hrec happ ⊢
  obtain ⟨fresh, dups, v₁⟩ := R
  dsimp only at hrec happ ⊢
  subst hrec
  rw [applyFills_of_accepted hne hl'] at happ ⊢
  exact happ

end Agrees

end TradeDesk
