import TradeDesk.Dispatch.Recovery
/-!
# What the broker's book knows

The paper broker keeps one order per submit under a new client id, and answers a submit under a
client id it already holds with the order it has, counting the submit all the same. So the count
of submits equals the number of orders exactly as long as no client id is ever submitted twice.

`Calm` is a change of the book that submits nothing: the count of submits and of orders stay,
and no client id becomes known. Cancels, replaces, executions, lookups and injected failures are
all calm, because they rewrite an order they found in the book and keep its client id. A submit
that the broker accepts under an unknown client id `Opens` one order under it.
-/

namespace TradeDesk

namespace Paper

/-- Whether the broker holds an order submitted under a client id. -/
def Knows (b : Paper) (clientId : String) : Prop := clientId ∈ b.orders.map (·.clientId)

theorem byClient?_eq_none_iff {b : Paper} {k : String} : b.byClient? k = none ↔ ¬ b.Knows k := by
  simp [byClient?, Knows]

theorem knows_of_byClient? {b : Paper} {k : String} {o : PaperOrder} (h : b.byClient? k = some o) : b.Knows k := by
  have hk : o.clientId = k := by simpa using List.find?_some h
  exact hk ▸ List.mem_map_of_mem (List.mem_of_find?_eq_some h)

theorem knows_clientId_of_byClient? {b : Paper} {k : String} {o : PaperOrder} (h : b.byClient? k = some o) :
    b.Knows o.clientId :=
  List.mem_map_of_mem (List.mem_of_find?_eq_some h)

theorem knows_of_byBroker? {b : Paper} {id : String} {o : PaperOrder} (h : b.byBroker? id = some o) :
    b.Knows o.clientId :=
  List.mem_map_of_mem (List.mem_of_find?_eq_some h)

/-- A change of the book that submits nothing. -/
structure Calm (b b' : Paper) : Prop where
  submits : b'.submits = b.submits
  length : b'.orders.length = b.orders.length
  knows : ∀ k, b'.Knows k → b.Knows k

theorem Calm.refl (b : Paper) : Calm b b := ⟨rfl, rfl, fun _ h => h⟩

theorem Calm.trans {b b' b'' : Paper} (h₁ : Calm b b') (h₂ : Calm b' b'') : Calm b b'' :=
  ⟨h₂.submits.trans h₁.submits, h₂.length.trans h₁.length, fun k h => h₁.knows k (h₂.knows k h)⟩

theorem calm_of_orders {b b' : Paper} (hs : b'.submits = b.submits) (ho : b'.orders = b.orders) : Calm b b' :=
  ⟨hs, by rw [ho], fun k h => by rwa [Knows, ho] at h⟩

theorem calm_takeFailure (b : Paper) : Calm b b.takeFailure.2 := by
  unfold takeFailure
  split <;> exact calm_of_orders rfl rfl

theorem calm_of_takeFailure {b b' : Paper} {f : Option Fault} (h : b.takeFailure = (f, b')) : Calm b b' := by
  have hc := calm_takeFailure b
  rwa [h] at hc

theorem calm_failNextWith (b : Paper) (m : String) : Calm b (b.failNextWith m) := calm_of_orders rfl rfl

/-- Rewriting the order of a broker id by one under a known client id learns nothing. -/
theorem calm_replaceOrder (b : Paper) (o : PaperOrder) (ho : b.Knows o.clientId) : Calm b (b.replaceOrder o) where
  submits := rfl
  length := by simp [replaceOrder]
  knows := fun k hk => by
    simp only [Knows, replaceOrder, List.map_map, List.mem_map, Function.comp] at hk
    obtain ⟨x, hx, rfl⟩ := hk
    split
    · exact ho
    · exact List.mem_map_of_mem hx

theorem knows_of_openOrder {b : Paper} {id : String} {o : PaperOrder} (h : b.openOrder id = .ok o) : b.Knows o.clientId := by
  unfold openOrder at h
  split at h
  · cases h
  · rename_i x hx
    split at h
    · cases h; exact knows_of_byBroker? hx
    · cases h

theorem calm_cancel (b : Paper) (now : Instant) (tok : InvokeToken) (id : String) : Calm b (b.cancel now tok id).2 := by
  unfold cancel
  split
  · exact Calm.refl b
  · split
    · rename_i f b' h
      exact calm_of_takeFailure h
    · rename_i b' h
      have hb : Calm b b' := calm_of_takeFailure h
      split
      · exact hb
      · rename_i o ho
        exact hb.trans (calm_replaceOrder b' _ (knows_of_openOrder (o := o) ho))

theorem calm_replace (b : Paper) (now : Instant) (tok : InvokeToken) (id : String) (qty : Int64)
    (limit : Option Int64) (tif : String) : Calm b (b.replace now tok id qty limit tif).2 := by
  unfold replace
  split
  · exact Calm.refl b
  · split
    · rename_i f b' h
      exact calm_of_takeFailure h
    · rename_i b' h
      have hb : Calm b b' := calm_of_takeFailure h
      split
      · exact hb
      · rename_i o ho
        split
        · exact hb
        · exact hb.trans (calm_replaceOrder b' _ (knows_of_openOrder (o := o) ho))

theorem calm_withFillSeq {b b' : Paper} (h : Calm b b') (n : UInt64) : Calm b { b' with fillSeq := n } :=
  h.trans (calm_of_orders rfl rfl)

theorem calm_fill (b : Paper) (clientId : String) (qty price fee : Int64) : Calm b (b.fill clientId qty price fee).2 := by
  unfold fill
  split
  · exact Calm.refl b
  · rename_i o ho
    split
    · exact Calm.refl b
    · split
      · exact Calm.refl b
      · dsimp only
        apply calm_withFillSeq
        exact calm_replaceOrder b _ (knows_clientId_of_byClient? (o := o) ho)

theorem calm_lookup (b : Paper) (k : String) : Calm b (b.lookup k).2 := by
  unfold lookup
  split <;> exact calm_of_orders rfl rfl

/-- A lookup that answers tells the truth. -/
theorem lookup_ok {b : Paper} {k : String} {r : Option String} (h : (b.lookup k).1 = .ok r) :
    (r = none ↔ ¬ b.Knows k) := by
  unfold lookup at h
  split at h
  · cases h
  · cases h
    rw [Option.map_eq_none_iff, byClient?_eq_none_iff]

/-- One more submit and one more order, under the client id. -/
structure Opens (b b' : Paper) (k : String) : Prop where
  submits : b'.submits = b.submits + 1
  orders : ∃ o : PaperOrder, o.clientId = k ∧ b'.orders = b.orders ++ [o]

theorem Opens.knows {b b' : Paper} {k : String} (h : Opens b b' k) (k' : String) : b'.Knows k' ↔ b.Knows k' ∨ k' = k := by
  obtain ⟨o, ho, he⟩ := h.orders
  simp only [Knows, he, List.map_append, List.map_cons, List.map_nil, List.mem_append, List.mem_singleton, ho]

/-- A refused submit is calm; an accepted one under an unknown client id opens an order. -/
theorem submit_spec (b : Paper) (ids : IdSource) (now : Instant) (tok : InvokeToken) (req : Intent) :
    ((∃ f, (b.submit ids now tok req).1 = .error f) → Calm b (b.submit ids now tok req).2.1) ∧
    ((∃ ack, (b.submit ids now tok req).1 = .ok ack) → ¬ b.Knows req.key → Opens b (b.submit ids now tok req).2.1 req.key) := by
  unfold submit
  split
  · exact ⟨fun _ => Calm.refl b, by rintro ⟨_, h⟩; cases h⟩
  · split
    · rename_i f b' h
      exact ⟨fun _ => calm_of_takeFailure h, by rintro ⟨_, h'⟩; cases h'⟩
    · rename_i b' h
      have hb : b' = b := by
        unfold takeFailure at h
        split at h <;> cases h
        rfl
      subst hb
      dsimp only
      split
      · rename_i o hc
        exact ⟨(by rintro ⟨_, h'⟩; cases h'), fun _ hn => absurd (knows_of_byClient? hc) hn⟩
      · exact ⟨(by rintro ⟨_, h'⟩; cases h'), fun _ _ => ⟨rfl, _, rfl, rfl⟩⟩

end Paper

namespace Venue

/-- A submit through the gateway leaves the store alone; a refused one is calm, and one the
broker accepts under a key it did not know opens an order under that key. -/
theorem submit_spec (v : Venue) (gs : Gates) (claim : Claim) (req : Intent) :
    (v.submit gs claim req).2.store = v.store ∧
    ((∃ f, (v.submit gs claim req).1 = .error f) → Paper.Calm v.broker (v.submit gs claim req).2.broker) ∧
    ((∃ ack, (v.submit gs claim req).1 = .ok ack) → ¬ v.broker.Knows claim.key →
      Paper.Opens v.broker (v.submit gs claim req).2.broker claim.key) := by
  unfold submit
  split
  · exact ⟨rfl, fun _ => Paper.Calm.refl _, by rintro ⟨_, h⟩; cases h⟩
  · split
    · exact ⟨rfl, fun _ => Paper.Calm.refl _, by rintro ⟨_, h⟩; cases h⟩
    · have hb := v.broker.submit_spec v.ids v.now minted { req with key := claim.key }
      refine ⟨rfl, ?_, ?_⟩
      · rintro ⟨f, hf⟩
        refine hb.1 ?_
        rcases hr : v.broker.submit v.ids v.now minted { req with key := claim.key } with ⟨r, broker, ids⟩
        rw [hr] at hf
        cases r with
        | error e => exact ⟨e, rfl⟩
        | ok a => cases hf
      · rintro ⟨ack, ha⟩ hn
        refine hb.2 ?_ hn
        rcases hr : v.broker.submit v.ids v.now minted { req with key := claim.key } with ⟨r, broker, ids⟩
        rw [hr] at ha
        cases r with
        | error e => cases ha
        | ok a => exact ⟨a, rfl⟩

theorem lookup_store (v : Venue) (k : String) : (v.lookup k).2.store = v.store := rfl

theorem calm_lookup (v : Venue) (k : String) : Paper.Calm v.broker (v.lookup k).2.broker := v.broker.calm_lookup k

theorem lookup_ok {v : Venue} {k : String} {r : Option String} (h : (v.lookup k).1 = .ok r) :
    (r = none ↔ ¬ v.broker.Knows k) :=
  Paper.lookup_ok h

theorem cancel_spec (v : Venue) (gs : Gates) (id : String) (ids : Option IdMap) :
    (v.cancel gs id ids).2.store = v.store ∧ Paper.Calm v.broker (v.cancel gs id ids).2.broker := by
  unfold cancel
  split
  · exact ⟨rfl, Paper.Calm.refl _⟩
  · split
    · exact ⟨rfl, Paper.Calm.refl _⟩
    · exact ⟨rfl, v.broker.calm_cancel _ _ _⟩

theorem replace_spec (v : Venue) (gs : Gates) (id : String) (ids : Option IdMap) (qty : Int64)
    (limit : Option Int64) (tif : String) :
    (v.replace gs id ids qty limit tif).2.store = v.store ∧
      Paper.Calm v.broker (v.replace gs id ids qty limit tif).2.broker := by
  unfold replace
  split
  · exact ⟨rfl, Paper.Calm.refl _⟩
  · split
    · exact ⟨rfl, Paper.Calm.refl _⟩
    · exact ⟨rfl, v.broker.calm_replace _ _ _ _ _ _⟩

end Venue

end TradeDesk
