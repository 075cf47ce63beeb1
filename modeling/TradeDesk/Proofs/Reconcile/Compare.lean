import TradeDesk.Reconcile.Drift
import Mathlib.Data.String.Basic
/-!
# Drift is exact

`compareBooks` diffs two maps, kept as lists of pairs with no key twice: the orders the desk
expects open (internal id to broker id) and the broker's open orders (client order id to broker
id). `DriftOf` says which drifts there are without the comparison: an expected order the broker
does not list is missing at the broker, with the desk's broker id; one it lists under another
broker id is a mismatch, with both ids; a broker order that is not expected and that `known` does
not claim is unknown at the broker, with the broker's id. A broker order listed under the expected
broker id gives nothing.

The comparison makes two passes, one over each map. The first gives at most one drift per expected
id and the second at most one per broker id that is not expected, so no id has two drifts
(`nodup_ids_compareBooks`), and the sort by id and kind is a strict order by id. The drifts are
exactly those `DriftOf` names (`mem_compareBooks`).
-/

namespace TradeDesk

section Maps

variable {β : Type} {m : List (String × β)} {k : String}

theorem lookup_eq_none_iff_not_mem : m.lookup k = none ↔ k ∉ m.map Prod.fst := by
  rw [List.lookup_eq_none_iff, List.mem_map]
  constructor
  · rintro h ⟨p, hp, rfl⟩
    simpa using h p hp
  · intro h p hp
    simpa using fun he : k = p.1 => h ⟨p, hp, he.symm⟩

/-- In a map with no key twice, a key looks up the value it is paired with. -/
theorem lookup_eq_some_iff (h : (m.map Prod.fst).Nodup) {v : β} : m.lookup k = some v ↔ (k, v) ∈ m := by
  induction m with
  | nil => simp
  | cons p m ih =>
    obtain ⟨a, b⟩ := p
    rw [List.map_cons, List.nodup_cons] at h
    rw [List.lookup_cons, List.mem_cons]
    by_cases hk : k = a
    · subst hk
      have hnot : (k, v) ∉ m := fun hm => h.1 (List.mem_map.2 ⟨(k, v), hm, rfl⟩)
      simp [hnot, eq_comm]
    · simp [beq_false_of_ne hk, hk, ih h.2]

/-- The ids of what a pass over a map gives for some of its keys, each under its own key, are some
of the map's keys, in order. -/
theorem sublist_keys_filterMap {g : String × β → Option Drift} (hg : ∀ p d, g p = some d → d.internalId = p.1) :
    ∀ m : List (String × β), ((m.filterMap g).map (·.internalId)).Sublist (m.map Prod.fst)
  | [] => List.Sublist.slnil
  | p :: m => by
    have ih := sublist_keys_filterMap hg m
    rw [List.filterMap_cons]
    cases hp : g p with
    | none => exact ih.cons _
    | some d => simpa [hg p d hp] using ih.cons_cons p.1

/-- Two passes, one over each of two maps with no key twice, each giving drifts under keys of its
map, the second only under keys the first map lacks, give no id twice. -/
theorem nodup_ids_append_filterMap {m₁ m₂ : List (String × β)} {g₁ g₂ : String × β → Option Drift}
    (h₁ : (m₁.map Prod.fst).Nodup) (h₂ : (m₂.map Prod.fst).Nodup) (hg₁ : ∀ p d, g₁ p = some d → d.internalId = p.1)
    (hg₂ : ∀ p d, g₂ p = some d → d.internalId = p.1 ∧ p.1 ∉ m₁.map Prod.fst) :
    ((m₁.filterMap g₁ ++ m₂.filterMap g₂).map (·.internalId)).Nodup := by
  have hs₁ := sublist_keys_filterMap hg₁ m₁
  rw [List.map_append, List.nodup_append]
  refine ⟨hs₁.nodup h₁, (sublist_keys_filterMap (fun p d hd => (hg₂ p d hd).1) m₂).nodup h₂, ?_⟩
  rintro a ha b hb rfl
  obtain ⟨d, hd, rfl⟩ := List.mem_map.1 hb
  obtain ⟨p, -, hp⟩ := List.mem_filterMap.1 hd
  obtain ⟨hid, hnot⟩ := hg₂ p d hp
  exact hnot (hid ▸ hs₁.subset ha)

end Maps

/-- The drifts between the orders `expected` open and the broker's open orders, said of the two
maps. -/
inductive DriftOf (expected brokerOpen : List (String × String)) (known : String → Bool) : Drift → Prop
  /-- An expected order the broker does not list. -/
  | missing {id mine : String} : (id, mine) ∈ expected → id ∉ brokerOpen.map Prod.fst →
      DriftOf expected brokerOpen known { kind := .missingAtBroker, internalId := id, localBrokerId := mine }
  /-- An expected order the broker lists under another broker id. -/
  | mismatch {id mine remote : String} : (id, mine) ∈ expected → (id, remote) ∈ brokerOpen → remote ≠ mine →
      DriftOf expected brokerOpen known
        { kind := .brokerIdMismatch, internalId := id, localBrokerId := mine, brokerId := remote }
  /-- A broker order that is neither expected nor known. -/
  | unknown {id remote : String} : (id, remote) ∈ brokerOpen → id ∉ expected.map Prod.fst → known id = false →
      DriftOf expected brokerOpen known { kind := .unknownAtBroker, internalId := id, brokerId := remote }

section Compare

variable {expected brokerOpen : List (String × String)} {known : String → Bool}

/-- The second pass keeps a broker order exactly when its id is neither expected nor known. -/
theorem not_expected_or_known_iff {id : String} :
    ¬((expected.lookup id).isSome = true ∨ known id = true) ↔ id ∉ expected.map Prod.fst ∧ known id = false := by
  rw [← lookup_eq_none_iff_not_mem]
  simp only [not_or, Bool.not_eq_true, Option.isSome_eq_false_iff, Option.isNone_iff_eq_none]

/-- The comparison sorts its drifts by id, then by the name of their kind. -/
theorem pairwise_compareBooks : (compareBooks expected brokerOpen known).Pairwise fun a b =>
    a.internalId < b.internalId ∨ a.internalId = b.internalId ∧ a.kind.text ≤ b.kind.text := by
  unfold compareBooks
  refine (List.pairwise_mergeSort (fun a b c hab hbc => ?_) (fun a b => ?_) _).imp fun h => by simpa using h
  · simp only [decide_eq_true_eq] at hab hbc ⊢
    rcases hab with hab | ⟨hab, hkab⟩ <;> rcases hbc with hbc | ⟨hbc, hkbc⟩
    · exact .inl (lt_trans hab hbc)
    · exact .inl (hbc ▸ hab)
    · exact .inl (hab ▸ hbc)
    · exact .inr ⟨hab.trans hbc, le_trans hkab hkbc⟩
  · simp only [Bool.or_eq_true, decide_eq_true_eq]
    rcases lt_trichotomy a.internalId b.internalId with h | h | h
    · exact .inl (.inl h)
    · rcases le_total a.kind.text b.kind.text with hk | hk
      · exact .inl (.inr ⟨h, hk⟩)
      · exact .inr (.inr ⟨h.symm, hk⟩)
    · exact .inr (.inl h)

/-- The drifts are exactly those the two maps have. -/
theorem mem_compareBooks (hb : (brokerOpen.map Prod.fst).Nodup) (d : Drift) :
    d ∈ compareBooks expected brokerOpen known ↔ DriftOf expected brokerOpen known d := by
  unfold compareBooks
  dsimp only
  rw [List.mem_mergeSort, List.mem_append, List.mem_filterMap, List.mem_filterMap]
  constructor
  · rintro (⟨⟨id, mine⟩, hp, hd⟩ | ⟨⟨id, remote⟩, hp, hd⟩)
    · cases hl : brokerOpen.lookup id with
      | none =>
        simp only [hl, Option.some.injEq] at hd
        exact hd ▸ .missing hp (lookup_eq_none_iff_not_mem.1 hl)
      | some remote =>
        simp only [hl] at hd
        split at hd
        · cases hd
        · rename_i hne
          cases hd
          exact .mismatch hp ((lookup_eq_some_iff hb).1 hl) hne
    · dsimp only at hd
      split at hd
      · cases hd
      · rename_i hnot
        cases hd
        obtain ⟨hn, hk⟩ := not_expected_or_known_iff.1 hnot
        exact .unknown hp hn hk
  · rintro (@⟨id, mine, hp, hn⟩ | @⟨id, mine, remote, hp, hr, hne⟩ | @⟨id, remote, hr, hn, hk⟩)
    · exact .inl ⟨(id, mine), hp, by simp [lookup_eq_none_iff_not_mem.2 hn]⟩
    · exact .inl ⟨(id, mine), hp, by simp [(lookup_eq_some_iff hb).2 hr, hne]⟩
    · refine .inr ⟨(id, remote), hr, ?_⟩
      simp [lookup_eq_none_iff_not_mem.2 hn, hk]

theorem nodup_ids_compareBooks (he : (expected.map Prod.fst).Nodup) (hb : (brokerOpen.map Prod.fst).Nodup) :
    ((compareBooks expected brokerOpen known).map (·.internalId)).Nodup := by
  unfold compareBooks
  dsimp only
  rw [((List.mergeSort_perm _ _).map _).nodup_iff]
  refine nodup_ids_append_filterMap he hb (fun p d hd => ?_) (fun p d hd => ?_)
  · split at hd
    · cases hd; rfl
    · split at hd
      · cases hd
      · cases hd; rfl
  · split at hd
    · cases hd
    · rename_i hnot
      cases hd
      exact ⟨rfl, (not_expected_or_known_iff.1 hnot).1⟩

/-- **Drift is exact.** For two maps with no key twice and every `known`, the comparison gives a
list strictly sorted by internal id, so with at most one drift per id, holding exactly the drifts
the two maps have: each expected order the broker does not list, missing at the broker with the
desk's broker id; each order both list under different broker ids, a mismatch with both ids; each
broker order not expected and not known, unknown at the broker with the broker's id. -/
theorem compareBooks_exact (expected brokerOpen : List (String × String)) (known : String → Bool)
    (he : (expected.map Prod.fst).Nodup) (hb : (brokerOpen.map Prod.fst).Nodup) :
    (compareBooks expected brokerOpen known).Pairwise (fun a b => a.internalId < b.internalId) ∧
      ∀ d, d ∈ compareBooks expected brokerOpen known ↔ DriftOf expected brokerOpen known d := by
  refine ⟨?_, mem_compareBooks hb⟩
  -- sorted by id and kind, with no id twice: sorted strictly by id
  refine (pairwise_compareBooks.and (List.pairwise_map.1 (nodup_ids_compareBooks he hb))).imp ?_
  rintro a b ⟨hab, hne⟩
  exact hab.resolve_right fun h => hne h.1

/-- The comparison of two expected orders with three broker orders, one of them known, finds one
drift of each kind. -/
theorem compareBooks_exact_of_every_kind :
    let expected := [("gone", "b1"), ("moved", "b2")]
    let brokerOpen := [("moved", "b9"), ("stray", "b3"), ("inflight", "b4")]
    let known := fun id => id == "inflight"
    (expected.map Prod.fst).Nodup ∧ (brokerOpen.map Prod.fst).Nodup ∧
      (compareBooks expected brokerOpen known).Pairwise (fun a b => a.internalId < b.internalId) ∧
      ∀ d, d ∈ compareBooks expected brokerOpen known ↔ DriftOf expected brokerOpen known d := by
  intro expected brokerOpen known
  have he : (expected.map Prod.fst).Nodup := by decide
  have hb : (brokerOpen.map Prod.fst).Nodup := by decide
  exact ⟨he, hb, compareBooks_exact expected brokerOpen known he hb⟩

end Compare

end TradeDesk
