import TradeDesk.Gateway.IdMap
import TradeDesk.Store.Inbox
import Mathlib.Data.String.Basic
import Mathlib.Data.List.Nodup
/-!
# The two records of broker ids

The desk keeps the broker id of each live order twice: in memory, as an `IdMap` ordered strictly
by internal id, and in the store, as a list of mappings in the order they were first registered.
Here each is brought to what it holds. An id map kept in order holds one entry per id, and its
lookup answers exactly the entries it holds (`brokerId?_eq_some`); registering replaces the entry
of an id and deregistering drops it (`mem_register`, `mem_deregister`), and loading a list of
mappings with distinct ids holds exactly them (`mem_load`). In the store, an upsert replaces the
mapping of an id in its place or adds one at the end, and a removal drops it
(`mem_upsertMapping`, `mem_removeMapping`); both keep the ids distinct.
-/

namespace TradeDesk

namespace IdMap

/-- Entries ordered strictly by internal id, so one entry per id. -/
def Sorted (m : IdMap) : Prop := m.entries.Pairwise (·.internalId < ·.internalId)

theorem sorted_empty : ({} : IdMap).Sorted := List.Pairwise.nil

/-- Putting an entry in its place in an ordered list drops the entry of its id and keeps the
others. -/
theorem mem_insertSorted {es : List Mapping} (hs : es.Pairwise (·.internalId < ·.internalId)) (m x : Mapping) :
    x ∈ insertSorted m es ↔ x = m ∨ x ∈ es ∧ x.internalId ≠ m.internalId := by
  induction es with
  | nil => simp [insertSorted]
  | cons e rest ih =>
    rw [List.pairwise_cons] at hs
    unfold insertSorted
    split
    · rename_i hlt
      have hgt : ∀ y ∈ e :: rest, m.internalId < y.internalId := fun y hy => by
        rcases List.mem_cons.1 hy with rfl | hy
        · exact hlt
        · exact lt_trans hlt (hs.1 y hy)
      constructor
      · intro hx
        rcases List.mem_cons.1 hx with rfl | hx
        · exact .inl rfl
        · exact .inr ⟨hx, ne_of_gt (hgt x hx)⟩
      · rintro (rfl | ⟨hx, -⟩)
        · exact List.mem_cons_self
        · exact List.mem_cons_of_mem m hx
    · split
      · rename_i _ heq
        constructor
        · intro hx
          rcases List.mem_cons.1 hx with rfl | hx
          · exact .inl rfl
          · exact .inr ⟨List.mem_cons_of_mem e hx, ne_of_gt (heq ▸ hs.1 x hx)⟩
        · rintro (rfl | ⟨hx, hne⟩)
          · exact List.mem_cons_self
          · rcases List.mem_cons.1 hx with rfl | hx
            · exact absurd heq.symm hne
            · exact List.mem_cons_of_mem m hx
      · rename_i _ hne
        rw [List.mem_cons, ih hs.2, List.mem_cons]
        constructor
        · rintro (rfl | rfl | ⟨hx, hne'⟩)
          · exact .inr ⟨.inl rfl, Ne.symm hne⟩
          · exact .inl rfl
          · exact .inr ⟨.inr hx, hne'⟩
        · rintro (rfl | ⟨rfl | hx, hne'⟩)
          · exact .inr (.inl rfl)
          · exact .inl rfl
          · exact .inr (.inr ⟨hx, hne'⟩)

theorem pairwise_insertSorted {es : List Mapping} (hs : es.Pairwise (·.internalId < ·.internalId)) (m : Mapping) :
    (insertSorted m es).Pairwise (·.internalId < ·.internalId) := by
  induction es with
  | nil => exact List.pairwise_singleton _ m
  | cons e rest ih =>
    rw [List.pairwise_cons] at hs
    unfold insertSorted
    split
    · rename_i hlt
      refine List.pairwise_cons.2 ⟨fun x hx => ?_, List.pairwise_cons.2 hs⟩
      rcases List.mem_cons.1 hx with rfl | hx
      · exact hlt
      · exact lt_trans hlt (hs.1 x hx)
    · split
      · rename_i _ heq
        exact List.pairwise_cons.2 ⟨fun x hx => heq ▸ hs.1 x hx, hs.2⟩
      · rename_i hnlt hne
        refine List.pairwise_cons.2 ⟨fun x hx => ?_, ih hs.2⟩
        rcases (mem_insertSorted hs.2 m x).1 hx with rfl | ⟨hx, -⟩
        · rcases lt_trichotomy x.internalId e.internalId with h | h | h
          · exact absurd h hnlt
          · exact absurd h hne
          · exact h
        · exact hs.1 x hx

theorem Sorted.register {m : IdMap} (hs : m.Sorted) (internalId brokerId : String) :
    (m.register internalId brokerId).Sorted :=
  pairwise_insertSorted hs _

theorem mem_register {m : IdMap} (hs : m.Sorted) (internalId brokerId : String) (x : Mapping) :
    x ∈ (m.register internalId brokerId).entries ↔ x = { internalId, brokerId } ∨ x ∈ m.entries ∧ x.internalId ≠ internalId :=
  mem_insertSorted hs _ x

theorem Sorted.deregister {m : IdMap} (hs : m.Sorted) (internalId : String) : (m.deregister internalId).Sorted :=
  List.Pairwise.filter _ hs

theorem mem_deregister (m : IdMap) (internalId : String) (x : Mapping) :
    x ∈ (m.deregister internalId).entries ↔ x ∈ m.entries ∧ x.internalId ≠ internalId := by
  simp [deregister]

/-- An id map kept in order answers a lookup with the one entry of the id. -/
theorem brokerId?_eq_some {m : IdMap} (hs : m.Sorted) {internalId brokerId : String} :
    m.brokerId? internalId = some brokerId ↔ { internalId, brokerId } ∈ m.entries := by
  have hnd : (m.entries.map (·.internalId)).Nodup := List.pairwise_map.2 (hs.imp ne_of_lt)
  unfold IdMap.brokerId?
  constructor
  · intro h
    obtain ⟨e, he, rfl⟩ := Option.map_eq_some_iff.1 h
    have hk : e.internalId = internalId := by simpa using List.find?_some he
    subst hk
    exact List.mem_of_find?_eq_some he
  · intro h
    cases hf : m.entries.find? (·.internalId = internalId) with
    | none => simpa using List.find?_eq_none.1 hf _ h
    | some e =>
      have hk : e.internalId = internalId := by simpa using List.find?_some hf
      have he : e = { internalId, brokerId } :=
        List.inj_on_of_nodup_map hnd (List.mem_of_find?_eq_some hf) h hk
      simp [he]

theorem isSome_brokerId? {m : IdMap} (hs : m.Sorted) (internalId : String) :
    (m.brokerId? internalId).isSome ↔ ∃ brokerId, { internalId, brokerId } ∈ m.entries := by
  rw [Option.isSome_iff_exists]
  exact exists_congr fun _ => brokerId?_eq_some hs

theorem Sorted.load {m : IdMap} (hs : m.Sorted) (es : List Mapping) : (m.load es).Sorted := by
  induction es generalizing m with
  | nil => exact hs
  | cons e rest ih => exact ih (hs.register _ _)

/-- Loading mappings of distinct ids, none of them registered yet, adds exactly them. -/
theorem mem_load {m : IdMap} (hs : m.Sorted) {es : List Mapping} (hnd : (es.map (·.internalId)).Nodup)
    (hdisj : ∀ e ∈ m.entries, e.internalId ∉ es.map (·.internalId)) (x : Mapping) :
    x ∈ (m.load es).entries ↔ x ∈ m.entries ∨ x ∈ es := by
  induction es generalizing m with
  | nil => simp [IdMap.load]
  | cons e rest ih =>
    rw [List.map_cons, List.nodup_cons] at hnd
    have hdisj' : ∀ y ∈ (m.register e.internalId e.brokerId).entries, y.internalId ∉ rest.map (·.internalId) := by
      intro y hy
      rcases (mem_register hs _ _ y).1 hy with rfl | ⟨hy, -⟩
      · exact hnd.1
      · exact fun h => hdisj y hy (List.mem_cons_of_mem _ h)
    show x ∈ ((m.register e.internalId e.brokerId).load rest).entries ↔ _
    rw [ih (hs.register _ _) hnd.2 hdisj', mem_register hs, List.mem_cons]
    constructor
    · rintro ((rfl | ⟨hx, -⟩) | hx)
      · exact .inr (.inl rfl)
      · exact .inl hx
      · exact .inr (.inr hx)
    · rintro (hx | rfl | hx)
      · exact .inl (.inr ⟨hx, fun h => hdisj x hx (h ▸ List.mem_cons_self)⟩)
      · exact .inl (.inl rfl)
      · exact .inr hx

end IdMap

namespace Store

theorem mem_upsertMapping (s : Store) (internalId brokerId : String) (x : Mapping) :
    x ∈ (s.upsertMapping internalId brokerId).mappings ↔
      x = { internalId, brokerId } ∨ x ∈ s.mappings ∧ x.internalId ≠ internalId := by
  unfold upsertMapping
  split
  · rename_i hany
    simp only [List.mem_map]
    constructor
    · rintro ⟨m, hm, rfl⟩
      by_cases hk : m.internalId = internalId
      · left
        simp [hk]
      · right
        simp [hk, hm]
    · rintro (rfl | ⟨hx, hk⟩)
      · obtain ⟨m, hm, hmk⟩ := List.any_eq_true.1 hany
        refine ⟨m, hm, ?_⟩
        simp only [decide_eq_true_eq] at hmk
        simp [hmk]
      · exact ⟨x, hx, by simp [hk]⟩
  · rename_i hany
    simp only [List.mem_append, List.mem_singleton]
    constructor
    · rintro (hx | rfl)
      · exact .inr ⟨hx, fun hk => hany (List.any_eq_true.2 ⟨x, hx, by simp [hk]⟩)⟩
      · exact .inl rfl
    · rintro (rfl | ⟨hx, -⟩)
      · exact .inr rfl
      · exact .inl hx

theorem nodup_upsertMapping {s : Store} (h : (s.mappings.map (·.internalId)).Nodup) (internalId brokerId : String) :
    ((s.upsertMapping internalId brokerId).mappings.map (·.internalId)).Nodup := by
  unfold upsertMapping
  split
  · rw [List.map_map]
    convert h using 1
    refine List.map_congr_left fun m _ => ?_
    by_cases hk : m.internalId = internalId <;> simp [hk]
  · rename_i hany
    rw [List.map_append, List.nodup_append]
    refine ⟨h, List.nodup_singleton _, fun a ha b hb => ?_⟩
    obtain ⟨m, hm, rfl⟩ := List.mem_map.1 ha
    rw [List.map_singleton, List.mem_singleton] at hb
    subst hb
    exact fun hk => hany (List.any_eq_true.2 ⟨m, hm, by simp [hk]⟩)

theorem mem_removeMapping (s : Store) (internalId : String) (x : Mapping) :
    x ∈ (s.removeMapping internalId).mappings ↔ x ∈ s.mappings ∧ x.internalId ≠ internalId := by
  simp [removeMapping]

theorem nodup_removeMapping {s : Store} (h : (s.mappings.map (·.internalId)).Nodup) (internalId : String) :
    ((s.removeMapping internalId).mappings.map (·.internalId)).Nodup :=
  h.sublist ((List.filter_sublist).map _)

end Store

end TradeDesk
