import TradeDesk.Intent
import TradeDesk.Saturating
import TradeDesk.Proofs.Broker.Orders
import TradeDesk.Proofs.Reconcile.Compare
import Mathlib.Data.String.Basic
/-!
# Intents toward target positions

`Intent.ofTargets` is read here symbol by symbol. The target of a symbol is the last one the list
gives it (`targetOf`), the holding the one the holdings list gives it (`heldOf`), and either is
zero when there is none. The intents come in strictly increasing symbol order, and the intent of a
symbol, if any, is the one `toward` the difference of words between its target and its holding
(`find?_ofTargets`): a buy of a positive difference, a sell of a negative one, nothing when they
are equal.

The difference wraps. Whenever the exact difference and its negation are both words, the intent
carries a positive quantity and moves the holding exactly onto the target
(`ofTargets_moves_to_targets`). Beyond that a difference wraps to the other sign, or to the least
word, whose negation is itself: a holding of −1 with a target of 2⁶³ − 1 is sold, by a quantity of
−2⁶³ (`ofTargets_sells_on_wrapped_difference`).
-/

namespace TradeDesk

namespace Intent

/-- The target of a symbol: the last one the targets give it, and zero without one. -/
def targetOf (targets : List (String × Int64)) (s : String) : Int64 := (targets.reverse.lookup s).getD 0

/-- The holding of a symbol, zero without one. -/
def heldOf (current : List (String × Int64)) (s : String) : Int64 := (current.lookup s).getD 0

/-- What an intent does to the holding of its symbol, as an exact integer. -/
def signedQty (i : Intent) : Int :=
  match i.side with
  | .buy => i.quantity.toInt
  | .sell => -i.quantity.toInt
  | .other _ _ => 0

/-- What a list of intents does to the holding of a symbol: what its first intent for the symbol
does, and nothing without one. -/
def moveOf (out : List Intent) (s : String) : Int := ((out.find? (·.symbol = s)).map signedQty).getD 0

/-- The intent that changes the holding of a symbol by a word: a buy of a positive change, a sell
of a negative one, and none for no change. -/
def toward (s : String) (delta : Int64) : Option Intent :=
  if 0 < delta then some { symbol := s, side := .buy, quantity := delta }
  else if delta < 0 then some { symbol := s, side := .sell, quantity := -delta }
  else none

/-- The targets with the last target of each symbol alone, the latest first. -/
def wanted (targets : List (String × Int64)) : List (String × Int64) :=
  targets.foldl (fun w t => t :: w.filter (·.1 ≠ t.1)) []

/-- The symbols of the targets and of the holdings, each once, in order. -/
def symbolsOf (current targets : List (String × Int64)) : List String :=
  ((wanted targets).map (·.1) ++ current.map (·.1)).eraseDups.mergeSort (fun a b => a ≤ b)

/-- The intents are, over the symbols in order, the intent toward each symbol's difference. -/
theorem ofTargets_eq (current targets : List (String × Int64)) :
    ofTargets current targets =
      (symbolsOf current targets).filterMap fun s => toward s (((wanted targets).lookup s).getD 0 - heldOf current s) :=
  rfl

/-! ### One intent per symbol -/

theorem symbol_of_toward {s : String} {delta : Int64} {i : Intent} (h : toward s delta = some i) : i.symbol = s := by
  unfold toward at h
  split at h
  · cases h; rfl
  · split at h
    · cases h; rfl
    · cases h

theorem side_of_toward {s : String} {delta : Int64} {i : Intent} (h : toward s delta = some i) :
    i.side = .buy ∨ i.side = .sell := by
  unfold toward at h
  split at h
  · cases h; exact .inl rfl
  · split at h
    · cases h; exact .inr rfl
    · cases h

theorem toward_zero (s : String) : toward s 0 = none := by
  simp [toward]

theorem toward_eq_none_iff {s : String} {delta : Int64} : toward s delta = none ↔ delta = 0 := by
  unfold toward
  rw [eq_zero_iff_toInt]
  split
  · rename_i hpos
    have := pos_iff_toInt.1 hpos
    simp only [reduceCtorEq, false_iff]
    omega
  · rename_i hpos
    have := mt pos_iff_toInt.2 hpos
    split
    · rename_i hneg
      have := neg_iff_toInt.1 hneg
      simp only [reduceCtorEq, false_iff]
      omega
    · rename_i hneg
      have := mt neg_iff_toInt.2 hneg
      simp only [true_iff]
      omega

/-- The intent toward a change other than the least word has a positive quantity and makes that
change exactly. -/
theorem toward_moves {s : String} {delta : Int64} {i : Intent} (h : toward s delta = some i)
    (hmin : delta ≠ Int64.minValue) : 0 < i.quantity ∧ signedQty i = delta.toInt := by
  unfold toward at h
  split at h
  · rename_i hpos
    cases h
    exact ⟨hpos, rfl⟩
  · rename_i hpos
    split at h
    · rename_i hneg
      cases h
      have hnegate := toInt_neg_of_ne hmin
      refine ⟨?_, ?_⟩
      · rw [pos_iff_toInt, hnegate]
        have := neg_iff_toInt.1 hneg
        omega
      · show -(-delta).toInt = delta.toInt
        omega
    · cases h

theorem nodup_eraseDups {α : Type} [BEq α] [LawfulBEq α] : (l : List α) → l.eraseDups.Nodup
  | [] => by simp
  | a :: as => by
    rw [List.eraseDups_cons, List.nodup_cons, List.mem_eraseDups]
    refine ⟨by simp, nodup_eraseDups (as.filter fun b => !b == a)⟩
  termination_by l => l.length
  decreasing_by exact Nat.lt_succ_of_le (List.length_filter_le _ _)

theorem symbolsOf_sorted (current targets : List (String × Int64)) :
    (symbolsOf current targets).Pairwise (· < ·) := by
  have hle : (symbolsOf current targets).Pairwise (· ≤ ·) := by
    unfold symbolsOf
    have h := @List.pairwise_mergeSort _ (fun a b : String => decide (a ≤ b))
      (fun a b c hab hbc => by simp only [decide_eq_true_eq] at *; exact le_trans hab hbc)
      (fun a b => by simpa only [Bool.or_eq_true, decide_eq_true_eq] using le_total a b)
      ((wanted targets).map (·.1) ++ current.map (·.1)).eraseDups
    simpa only [decide_eq_true_eq] using h
  have hnd : (symbolsOf current targets).Nodup :=
    (List.mergeSort_perm _ _).nodup_iff.2 (nodup_eraseDups _)
  exact (hnd.and hle).imp fun h => lt_of_le_of_ne h.2 h.1

/-- Dropping the entries of another symbol leaves what a symbol looks up. -/
theorem lookup_filter_ne {s k : String} (hk : s ≠ k) :
    ∀ l : List (String × Int64), (l.filter (·.1 ≠ k)).lookup s = l.lookup s
  | [] => rfl
  | (a, b) :: ps => by
    have ih := lookup_filter_ne hk ps
    by_cases ha : a = k
    · subst ha
      rw [List.filter_cons_of_neg (by simp), ih, List.lookup_cons, beq_false_of_ne hk]
    · rw [List.filter_cons_of_pos (by simpa using ha), List.lookup_cons, List.lookup_cons, ih]

/-- A symbol's first wanted quantity is its last target. -/
theorem lookup_wanted (targets : List (String × Int64)) (s : String) :
    (wanted targets).lookup s = targets.reverse.lookup s := by
  -- over the targets taken so far, the latest target of each symbol stands first
  suffices h : ∀ w : List (String × Int64),
      (targets.foldl (fun w t => t :: w.filter (·.1 ≠ t.1)) w).lookup s = (targets.reverse.lookup s).or (w.lookup s) by
    rw [wanted, h [], List.lookup_nil, Option.or_none]
  induction targets with
  | nil => intro w; simp
  | cons t ts ih =>
    intro w
    obtain ⟨k, q⟩ := t
    rw [List.foldl_cons, ih, List.reverse_cons, List.lookup_append, Option.or_assoc]
    congr 1
    by_cases hk : s = k
    · subst hk
      simp
    · rw [List.lookup_cons, List.lookup_cons, beq_false_of_ne hk]
      exact lookup_filter_ne hk w

theorem mem_symbolsOf {current targets : List (String × Int64)} {s : String} :
    s ∈ symbolsOf current targets ↔ s ∈ targets.map (·.1) ∨ s ∈ current.map (·.1) := by
  have hw : s ∈ (wanted targets).map (·.1) ↔ s ∈ targets.map (·.1) := by
    rw [← not_iff_not, ← lookup_eq_none_iff_not_mem, lookup_wanted, lookup_eq_none_iff_not_mem, List.map_reverse, List.mem_reverse]
  rw [symbolsOf, List.mem_mergeSort, List.mem_eraseDups, List.mem_append, hw]

/-- Over distinct symbols, the intent found for a symbol is the one made for it. -/
theorem find?_filterMap_toward (g : String → Int64) :
    ∀ {xs : List String}, xs.Nodup → ∀ s,
      (xs.filterMap fun x => toward x (g x)).find? (·.symbol = s) = if s ∈ xs then toward s (g s) else none
  | [], _, s => by simp
  | x :: xs, hnd, s => by
    rw [List.nodup_cons] at hnd
    have ih := find?_filterMap_toward g hnd.2 s
    rw [List.filterMap_cons]
    cases hx : toward x (g x) with
    | none =>
      by_cases hs : s = x
      · subst hs
        simp [hx, ih, hnd.1]
      · simp [ih, hs]
    | some i =>
      have hsym := symbol_of_toward hx
      by_cases hs : s = x
      · subst hs
        simp [hsym, hx]
      · have hne : i.symbol ≠ s := fun he => hs (he ▸ hsym)
        simp [hne, ih, hs]

/-- **The intent of a symbol.** The intents hold, for each symbol, the one toward the difference of
words between its last target and its holding. -/
theorem find?_ofTargets (current targets : List (String × Int64)) (s : String) :
    (ofTargets current targets).find? (·.symbol = s) = toward s (targetOf targets s - heldOf current s) := by
  have hnd : (symbolsOf current targets).Nodup := (symbolsOf_sorted current targets).imp ne_of_lt
  rw [ofTargets_eq, find?_filterMap_toward _ hnd, lookup_wanted]
  split
  · rfl
  · rename_i hs
    rw [mem_symbolsOf, not_or] at hs
    rw [targetOf, heldOf, lookup_eq_none_iff_not_mem.2 (by simpa using hs.1), lookup_eq_none_iff_not_mem.2 hs.2]
    exact (toward_zero s).symm

theorem ofTargets_sorted (current targets : List (String × Int64)) :
    ((ofTargets current targets).map (·.symbol)).Pairwise (· < ·) := by
  rw [ofTargets_eq, List.pairwise_map]
  refine List.Pairwise.filterMap _ ?_ (symbolsOf_sorted current targets)
  intro a b hab x hx y hy
  rw [symbol_of_toward hx, symbol_of_toward hy]
  exact hab

/-- Each intent is the one toward its symbol's difference. -/
theorem mem_ofTargets {current targets : List (String × Int64)} {i : Intent} (hi : i ∈ ofTargets current targets) :
    toward i.symbol (targetOf targets i.symbol - heldOf current i.symbol) = some i := by
  rw [← find?_ofTargets]
  exact Paper.find?_of_nodup ((ofTargets_sorted current targets).imp ne_of_lt) hi

/-- **The intents move the book exactly to the targets.** The intents come in strictly increasing
symbol order, each a buy or a sell. For every symbol whose exact difference between target and
holding is a word whose negation is a word too, its intent, if any, has a positive quantity, and
the holding moved by it is the target. A symbol held at its target has no intent. -/
theorem ofTargets_moves_to_targets (current targets : List (String × Int64)) :
    ((ofTargets current targets).map (·.symbol)).Pairwise (· < ·) ∧
      (∀ i ∈ ofTargets current targets, i.side = .buy ∨ i.side = .sell) ∧
      (∀ s, -Int64.maxValue.toInt ≤ (targetOf targets s).toInt - (heldOf current s).toInt →
        (targetOf targets s).toInt - (heldOf current s).toInt ≤ Int64.maxValue.toInt →
        (∀ i ∈ ofTargets current targets, i.symbol = s → 0 < i.quantity) ∧
          (heldOf current s).toInt + moveOf (ofTargets current targets) s = (targetOf targets s).toInt) ∧
      (∀ s, heldOf current s = targetOf targets s → ∀ i ∈ ofTargets current targets, i.symbol ≠ s) := by
  refine ⟨ofTargets_sorted current targets, fun i hi => side_of_toward (mem_ofTargets hi), ?_, ?_⟩
  · intro s lo hi
    -- in range, the difference of words is the exact difference, and not the least word
    have hdelta : (targetOf targets s - heldOf current s).toInt = (targetOf targets s).toInt - (heldOf current s).toInt :=
      toInt_sub_of_le (by rw [Int64.toInt_minValue] at *; rw [Int64.toInt_maxValue] at lo; omega) hi
    have hmin : targetOf targets s - heldOf current s ≠ Int64.minValue := by
      intro he
      rw [he, Int64.toInt_minValue] at hdelta
      rw [Int64.toInt_maxValue] at lo
      omega
    refine ⟨fun i hi hs => (toward_moves (hs ▸ mem_ofTargets hi) hmin).1, ?_⟩
    rw [moveOf, find?_ofTargets]
    cases ht : toward s (targetOf targets s - heldOf current s) with
    | none =>
      rw [toward_eq_none_iff.1 ht, Int64.toInt_zero] at hdelta
      simp only [Option.map_none, Option.getD_none]
      omega
    | some i =>
      simp only [Option.map_some, Option.getD_some, (toward_moves ht hmin).2, hdelta]
      omega
  · intro s heq i hi hs
    have h := mem_ofTargets hi
    rw [hs, heq, Int64.sub_self, toward_zero] at h
    cases h

/-- Holdings of 5 of `A` and 3 of `B`, with targets of 2 of `A`, 4 of `C` and then 7 of `A`:
`B` is sold down to nothing. -/
theorem ofTargets_moves_to_targets_selling_down :
    (-Int64.maxValue.toInt ≤
        (targetOf [("A", 2), ("C", 4), ("A", 7)] "B").toInt - (heldOf [("A", 5), ("B", 3)] "B").toInt ∧
      (targetOf [("A", 2), ("C", 4), ("A", 7)] "B").toInt - (heldOf [("A", 5), ("B", 3)] "B").toInt ≤
        Int64.maxValue.toInt) ∧
    (heldOf [("A", 5), ("B", 3)] "B").toInt +
        moveOf (ofTargets [("A", 5), ("B", 3)] [("A", 2), ("C", 4), ("A", 7)]) "B" =
      (targetOf [("A", 2), ("C", 4), ("A", 7)] "B").toInt :=
  ⟨⟨by decide, by decide⟩,
    ((ofTargets_moves_to_targets [("A", 5), ("B", 3)] [("A", 2), ("C", 4), ("A", 7)]).2.2.1 "B"
      (by decide) (by decide)).2⟩

/-- A holding of −1 with a target of 2⁶³ − 1: the difference 2⁶³ wraps to −2⁶³, and the intent
sells −2⁶³. -/
theorem ofTargets_sells_on_wrapped_difference :
    ofTargets [("A", -1)] [("A", 9223372036854775807)] =
      [{ symbol := "A", side := .sell, quantity := -9223372036854775808 }] := by
  decide +kernel

end Intent

end TradeDesk
