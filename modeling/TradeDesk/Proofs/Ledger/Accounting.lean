import TradeDesk.Proofs.Ledger.Conservation
import TradeDesk.Ledger.Valuation
import TradeDesk.Price
import Mathlib.Tactic.Ring
import Mathlib.Tactic.LinearCombination
import Mathlib.Tactic.Linarith
/-!
# The accounts balance

Cash and positions move together. A buy pays its notional out of cash and adds lots worth as much
at cost, a sell takes the notional in and removes as much, and closing a lot moves its cost into
realized profit: the walk realizes the difference between the fill's price and the lot's entry on
what it closes, so the cost it removes and the profit it realizes come to the notional of what it
closes (`close_cost`, `trade_cost`). The fee leaves cash and goes nowhere else. So while nothing
saturates, cash plus what the open lots cost is the initial cash plus the realized profit, less
the fees, plus the cash adjustments (`Ledger.Balanced`).

"Nothing saturates" is `Standing.exactRun`: every product, sum and difference the ledger computes
for an entry fits a word, each where it is computed. For a fill that is the notional, the cash
after it and after the fee, each profit realized and each running total of the realized profit,
and each running total of the net quantity of the fill's position after it; for a cash entry, the
cash after it.

Valued at marks, the equity is the cash plus each position's net quantity at its mark, while the
unrealized profit values each lot against its own entry price; with net quantities exact the two
differ by exactly the cost of the open lots. So the equity is the initial cash plus the realized
and the unrealized profit, less the fees, plus the adjustments, clamped once at the end. It is
that sum whenever the exact unrealized profit and the sum fit a word; at marks where a valuation
clamps it need not be (`equity_clamps_at_extreme_marks`).
-/

namespace TradeDesk

/-! ### Exact sums of words -/

theorem fitsWord_iff {x : Int} : fitsWord x = true ↔ Int64.minValue.toInt ≤ x ∧ x ≤ Int64.maxValue.toInt := by
  simp only [fitsWord, decide_eq_true_eq, Int64.toInt_minValue, Int64.toInt_maxValue]
  show -2 ^ 63 ≤ x ∧ x < 2 ^ 63 ↔ _
  omega

theorem toInt_clampWord_of_fits {x : Int} (h : fitsWord x = true) : (clampWord x).toInt = x :=
  clampWord_toInt (fitsWord_iff.1 h).1 (fitsWord_iff.1 h).2

theorem clampWord_toInt_self (a : Int64) : clampWord a.toInt = a :=
  Int64.toInt_inj.1 (clampWord_toInt (Int64.minValue_le_toInt a) (Int64.toInt_le a))

theorem toInt_satAdd_of_fits {a b : Int64} (h : fitsWord (a.toInt + b.toInt) = true) :
    (satAdd a b).toInt = a.toInt + b.toInt :=
  toInt_clampWord_of_fits h

theorem toInt_satSub_of_fits {a b : Int64} (h : fitsWord (a.toInt - b.toInt) = true) :
    (satSub a b).toInt = a.toInt - b.toInt :=
  toInt_clampWord_of_fits h

/-- Whether every running total of the values, from `start` on, fits a word. -/
def sumsFit : Int → List Int → Bool
  | _, [] => true
  | start, x :: xs => fitsWord (start + x) && sumsFit (start + x) xs

/-- Adding words one by one with saturation adds them exactly while every running total fits. -/
theorem foldl_satAdd_toInt {ws : List Int64} {a : Int64} (h : sumsFit a.toInt (ws.map (·.toInt)) = true) :
    (ws.foldl satAdd a).toInt = a.toInt + (ws.map (·.toInt)).sum := by
  induction ws generalizing a with
  | nil => simp
  | cons w ws ih =>
    simp only [List.map_cons, sumsFit, Bool.and_eq_true] at h
    have hstep : (satAdd a w).toInt = a.toInt + w.toInt := toInt_satAdd_of_fits h.1
    rw [List.foldl_cons, ih (hstep ▸ h.2), hstep, List.map_cons, List.sum_cons]
    omega

/-- Adding exact values one by one, each clamped and then added with saturation, adds them exactly
while every value and every running total fits. -/
theorem foldl_satAdd_clampWord_toInt {xs : List Int} {a : Int64} (hx : xs.all fitsWord = true)
    (h : sumsFit a.toInt xs = true) :
    (xs.foldl (fun r x => satAdd r (clampWord x)) a).toInt = a.toInt + xs.sum := by
  have hwords : (xs.map clampWord).map (·.toInt) = xs := by
    rw [List.map_map]
    conv => rhs; rw [← List.map_id xs]
    refine List.map_congr_left fun x hx' => ?_
    exact toInt_clampWord_of_fits (List.all_eq_true.1 hx x hx')
  have h' : sumsFit a.toInt ((xs.map clampWord).map (·.toInt)) = true := by
    rw [hwords]
    exact h
  have hfold : xs.foldl (fun r x => satAdd r (clampWord x)) a = (xs.map clampWord).foldl satAdd a := by
    rw [List.foldl_map]
  rw [hfold, foldl_satAdd_toInt h', hwords]

/-- A position's net quantity is the quantity its lots hold while every running total fits. -/
theorem Position.toInt_qtySigned {p : Position} (h : sumsFit 0 (p.lots.map (·.qty.toInt)) = true) :
    p.qtySigned.toInt = Fifo.held p.lots := by
  have hq : p.qtySigned = (p.lots.map (·.qty)).foldl satAdd 0 := by
    rw [Position.qtySigned, List.foldl_map]
  rw [hq, foldl_satAdd_toInt (by rwa [List.map_map, Int64.toInt_zero]), Int64.toInt_zero, zero_add,
    List.map_map]
  rfl

/-! ### The walk moves cost into realized profit -/

namespace Fifo

/-- The profits a walk realizes, exactly, in the order it closes the lots. -/
def gains (sells : Bool) (px : Int64) : List Lot → Int64 → List Int
  | [], _ => []
  | lot :: rest, qty =>
    if qty = 0 ∨ !(if sells then lot.isLong else lot.isShort) then gains sells px rest qty
    else
      let n := min lot.size qty
      (if sells then (px.toInt - lot.entry.toInt) * n.toInt else (lot.entry.toInt - px.toInt) * n.toInt) ::
        gains sells px rest (qty - n)

/-- The realized profit after a walk is its gains added to it one by one, each clamped and added
with saturation. -/
theorem realized_close (sells : Bool) (px : Int64) (lots : List Lot) (realized qty : Int64) :
    (close sells px lots realized qty).2.1 =
      (gains sells px lots qty).foldl (fun r g => satAdd r (clampWord g)) realized := by
  induction lots generalizing realized qty with
  | nil => rfl
  | cons lot rest ih =>
    rw [close, gains]
    by_cases hc : qty = 0 ∨ !(if sells then lot.isLong else lot.isShort)
    · rw [if_pos hc, if_pos hc, ← ih realized qty]
    · rw [if_neg hc, if_neg hc]
      dsimp only
      rw [List.foldl_cons, ← ih]

theorem realized_trade (sells : Bool) (lots : List Lot) (realized qty px : Int64) :
    (trade sells lots realized qty px).2 =
      (gains sells px lots qty).foldl (fun r g => satAdd r (clampWord g)) realized := by
  rw [← realized_close]
  rcases hc : close sells px lots realized qty with ⟨kept, r, q⟩
  unfold trade
  rw [hc]

/-- A walk over lots none of which the fill closes realizes nothing. -/
theorem gains_of_keeps {sells : Bool} {px : Int64} {lots : List Lot} (h : ∀ l ∈ lots, l.OnSide !sells)
    (qty : Int64) : gains sells px lots qty = [] := by
  induction lots with
  | nil => rfl
  | cons l rest ih =>
    have hk := Lot.keeps_of_onSide (h l List.mem_cons_self)
    have ih := ih (fun x hx => h x (List.mem_cons_of_mem l hx))
    simp only [gains, hk, Bool.not_false, or_true, if_true, ih]

/-- What lots cost: each lot's quantity at its entry price, short lots negatively. -/
def cost (lots : List Lot) : Int := (lots.map fun l => l.qty.toInt * l.entry.toInt).sum

@[simp] theorem cost_nil : cost [] = 0 := rfl

@[simp] theorem cost_cons (l : Lot) (lots : List Lot) : cost (l :: lots) = l.qty.toInt * l.entry.toInt + cost lots := by
  simp [cost]

@[simp] theorem cost_append (a b : List Lot) : cost (a ++ b) = cost a + cost b := by
  simp [cost]

/-- What a closing step keeps of a lot costs what was left of it at its entry price. -/
theorem cost_leftover (sells : Bool) {left : Int64} (hl : 0 ≤ left.toInt) (entry : Int64) :
    cost (if 0 < left then [({ qty := if sells then left else -left, entry } : Lot)] else []) =
      (if sells then left.toInt else -left.toInt) * entry.toInt := by
  by_cases hpos : 0 < left
  · rw [if_pos hpos, cost_cons, cost_nil, (onSide_signed sells (pos_iff_toInt.1 hpos) entry).2, add_zero]
  · have hzero : left.toInt = 0 := by
      rw [pos_iff_toInt] at hpos
      omega
    rw [if_neg hpos, cost_nil, hzero]
    simp

/-- A walk closing lots on their side takes out of their cost what it closed at the fill's price,
less the profit it realized on it. -/
theorem close_cost {sells : Bool} {px : Int64} {lots : List Lot} :
    ∀ {realized qty : Int64} {kept : List Lot} {r q : Int64},
      close sells px lots realized qty = (kept, r, q) → (∀ l ∈ lots, l.OnSide sells) → 0 ≤ qty.toInt →
        cost kept = cost lots + (if sells then q.toInt - qty.toInt else qty.toInt - q.toInt) * px.toInt +
          (gains sells px lots qty).sum := by
  induction lots with
  | nil =>
    intro realized qty kept r q h _ _
    simp only [close, Prod.mk.injEq] at h
    obtain ⟨rfl, -, rfl⟩ := h
    cases sells <;> simp [gains]
  | cons l rest ih =>
    intro realized qty kept r q h hlots hq
    have hl : l.OnSide sells := hlots l List.mem_cons_self
    have hrest : ∀ x ∈ rest, x.OnSide sells := fun x hx => hlots x (List.mem_cons_of_mem l hx)
    simp only [close, Lot.closes_of_onSide hl, Bool.not_true, Bool.false_eq_true, or_false] at h
    simp only [gains, Lot.closes_of_onSide hl, Bool.not_true, Bool.false_eq_true, or_false]
    split at h
    · rename_i hzero
      rw [if_pos hzero]
      rcases hc : close sells px rest realized qty with ⟨kept', r', q'⟩
      rw [hc] at h
      simp only [Prod.mk.injEq] at h
      obtain ⟨rfl, -, rfl⟩ := h
      rw [cost_cons, cost_cons, ih hc hrest hq]
      ring
    · rename_i hclose
      rw [if_neg hclose]
      obtain ⟨-, hS, hN, hL, hK⟩ := closing_words hl hq
      have hq' : 0 ≤ (qty - min l.size qty).toInt := by omega
      generalize hc : close sells px rest _ (qty - min l.size qty) = c at h
      obtain ⟨kept', r', q'⟩ := c
      generalize l.size - min l.size qty = left at h hL
      simp only [Prod.mk.injEq] at h
      obtain ⟨rfl, -, rfl⟩ := h
      rw [cost_append, cost_leftover sells (by omega) l.entry, cost_cons, ih hc hrest hq', List.sum_cons, hK, hL]
      cases sells <;> simp only [if_true, if_false, Bool.false_eq_true] at hS ⊢ <;> rw [hS] <;> ring

/-- **A fill moves cost by its notional and realized profit.** Lots on one side, traded by a
fill of a positive quantity, cost after it what they cost before, plus the fill's signed quantity
at its price, plus the profit it realized. -/
theorem trade_cost {sells : Bool} {lots : List Lot} {realized qty px : Int64} (hl : OneSided lots)
    (hq : 0 < qty.toInt) :
    cost (trade sells lots realized qty px).1 =
      cost lots + (if sells then -qty.toInt else qty.toInt) * px.toInt + (gains sells px lots qty).sum := by
  obtain ⟨long, hl⟩ := hl
  by_cases hs : long = sells
  · subst hs
    rcases hc : close long px lots realized qty with ⟨kept, r, q⟩
    obtain ⟨-, -, -, hall, -⟩ := close_onSide hc hl hq.le
    have hcost := close_cost hc hl hq.le
    unfold trade
    rw [hc]
    dsimp only
    by_cases hpos : 0 < q
    · have hpos' : 0 < q.toInt := by rwa [pos_iff_toInt] at hpos
      rw [hall hpos', cost_nil] at hcost
      rw [if_pos hpos, hall hpos', List.nil_append, cost_cons, cost_nil, (onSide_opened long hpos' px).2]
      cases long <;> simp only [if_true, if_false, Bool.false_eq_true] at hcost ⊢ <;> linear_combination hcost
    · have hzero : q.toInt = 0 := by
        rw [pos_iff_toInt] at hpos
        have := (close_onSide hc hl hq.le).2.1
        omega
      rw [if_neg hpos, hcost, hzero]
      cases long <;> simp only [if_true, if_false, Bool.false_eq_true] <;> ring
  · have hl' : ∀ l ∈ lots, l.OnSide !sells := by
      have : long = !sells := by cases long <;> cases sells <;> simp_all
      exact this ▸ hl
    unfold trade
    rw [close_of_keeps hl', gains_of_keeps hl']
    dsimp only
    rw [if_pos (by rwa [pos_iff_toInt]), cost_append, cost_cons, cost_nil,
      (onSide_opened sells hq px).2]
    cases sells <;> simp

end Fifo

/-! ### A fill that saturates nothing -/

namespace Fill

/-- The profits a fill realizes on the lots of its position, exactly: a buy or a sell realizes
what its walk does, and a fill on another side nothing. -/
def gains (f : Fill) (lots : List Lot) : List Int :=
  match f.side with
  | .buy => Fifo.gains false f.price lots f.qty
  | .sell => Fifo.gains true f.price lots f.qty
  | .other _ _ => []

theorem gains_of_side {f : Fill} {sells : Bool} (h : f.side = if sells then .sell else .buy) (lots : List Lot) :
    f.gains lots = Fifo.gains sells f.price lots f.qty := by
  cases sells <;> simp only [gains, h, if_true, if_false, Bool.false_eq_true]

/-- The cash after a fill whose notional and cash amounts fit words: the notional moves it by the
fill's side, and the fee is taken. -/
theorem toInt_cashAfter {f : Fill} {cash : Int64} (hn : fitsWord (f.qty.toInt * f.price.toInt) = true)
    (hm : fitsWord (cash.toInt - f.side.sign * (f.qty.toInt * f.price.toInt)) = true)
    (hf : fitsWord (cash.toInt - f.side.sign * (f.qty.toInt * f.price.toInt) - f.fee.toInt) = true) :
    (f.cashAfter cash).toInt = cash.toInt - f.side.sign * (f.qty.toInt * f.price.toInt) - f.fee.toInt := by
  have hnot : (clampWord (wideMul f.qty f.price)).toInt = f.qty.toInt * f.price.toInt := toInt_clampWord_of_fits hn
  obtain ⟨moved, hmoved, hcash⟩ : ∃ moved : Int64,
      moved.toInt = cash.toInt - f.side.sign * (f.qty.toInt * f.price.toInt) ∧ f.cashAfter cash = satSub moved f.fee := by
    cases hs : f.side with
    | buy =>
      rw [hs, Side.sign, one_mul] at hm
      refine ⟨satSub cash (clampWord (wideMul f.qty f.price)), ?_, by simp only [cashAfter, hs]⟩
      rw [toInt_satSub_of_fits (by rwa [hnot]), hnot, Side.sign, one_mul]
    | sell =>
      rw [hs, Side.sign, neg_one_mul, sub_neg_eq_add] at hm
      refine ⟨satAdd cash (clampWord (wideMul f.qty f.price)), ?_, by simp only [cashAfter, hs]⟩
      rw [toInt_satAdd_of_fits (by rwa [hnot]), hnot, Side.sign, neg_one_mul, sub_neg_eq_add]
    | other t => exact ⟨cash, by simp [Side.sign], by simp only [cashAfter, hs]⟩
  rw [hcash, toInt_satSub_of_fits (by rwa [hmoved]), hmoved]

end Fill

/-! ### Holdings at cost -/

namespace Holdings

/-- What the open lots of all positions cost. -/
def cost (h : Holdings) : Int := (h.map fun p => Fifo.cost p.lots).sum

@[simp] theorem cost_nil : cost [] = 0 := rfl

@[simp] theorem cost_cons (p : Position) (h : Holdings) : cost (p :: h) = Fifo.cost p.lots + cost h := by
  simp [cost]

/-- Every running total of each position's net quantity fits a word. -/
def NetsFit (h : Holdings) : Prop := ∀ p ∈ h, sumsFit 0 (p.lots.map (·.qty.toInt)) = true

theorem find?_of_lt {q : Position} {rest : Holdings} (hs : Sorted (q :: rest)) {s : String} (hlt : s < q.symbol) :
    find? (q :: rest) s = none := by
  rw [Sorted, List.pairwise_cons] at hs
  rw [find?_cons, if_neg (ne_of_gt hlt)]
  unfold find?
  rw [List.find?_eq_none]
  intro x hx
  simpa using ne_of_gt (lt_trans hlt (hs.1 x hx))

/-- Putting a position in sorted holdings replaces the cost of the one it replaces. -/
theorem cost_put {h : Holdings} (hs : h.Sorted) (p : Position) :
    (h.put p).cost = h.cost - Fifo.cost ((h.find? p.symbol).getD { symbol := p.symbol }).lots + Fifo.cost p.lots := by
  induction h with
  | nil => simp [put, find?_nil]
  | cons q rest ih =>
    have hrest : Sorted rest := (List.pairwise_cons.1 hs).2
    unfold put
    by_cases hlt : p.symbol < q.symbol
    · rw [if_pos hlt, find?_of_lt hs hlt]
      simp only [cost_cons, Option.getD_none, Fifo.cost_nil]
      ring
    · rw [if_neg hlt]
      by_cases heq : p.symbol = q.symbol
      · rw [if_pos heq, find?_cons, if_pos heq.symm]
        simp only [cost_cons, Option.getD_some]
        ring
      · rw [if_neg heq, find?_cons, if_neg (Ne.symm heq), cost_cons, cost_cons, ih hrest]
        ring

/-- Dropping a symbol from sorted holdings takes out the cost of its position. -/
theorem cost_erase {h : Holdings} (hs : h.Sorted) (s : String) :
    (h.erase s).cost = h.cost - Fifo.cost ((h.find? s).getD { symbol := s }).lots := by
  induction h with
  | nil => simp [erase, find?_nil]
  | cons q rest ih =>
    have hrest : Sorted rest := (List.pairwise_cons.1 hs).2
    rw [find?_cons]
    by_cases hq : q.symbol = s
    · -- the position dropped is the first, and nothing after it has its symbol
      have hkeep : Holdings.erase rest s = rest := by
        refine List.filter_eq_self.2 fun x hx => ?_
        have hlt : q.symbol < x.symbol := (List.pairwise_cons.1 hs).1 x hx
        simpa [hq] using ne_of_gt hlt
      have he : Holdings.erase (q :: rest) s = Holdings.erase rest s := by simp [erase, hq]
      rw [he, hkeep, if_pos hq, Option.getD_some, cost_cons]
      ring
    · have he : Holdings.erase (q :: rest) s = q :: Holdings.erase rest s := by simp [erase, hq]
      rw [he, if_neg hq, cost_cons, cost_cons, ih hrest]
      ring

end Holdings

/-! ### A fill moves cash, cost and realized profit together -/

namespace Standing

/-- Whether applying the entry computes every amount exactly: no product, sum or difference
leaves the range of words, so no clamp or saturation changes one. For a fill, that is its
notional, the cash after the notional and after the fee, every profit it realizes and every
running total of the realized profit, and every running total of its position's net quantity
after it; for a cash entry, the cash after it. -/
def exact (s : Standing) : Entry → Bool
  | .fill f =>
    let lots := ((s.holdings.find? f.symbol).getD { symbol := f.symbol }).lots
    let notional := f.qty.toInt * f.price.toInt
    let moved := s.cash.toInt - f.side.sign * notional
    fitsWord notional && fitsWord moved && fitsWord (moved - f.fee.toInt) &&
      (f.gains lots).all fitsWord && sumsFit s.realized.toInt (f.gains lots) &&
      sumsFit 0 ((f.onLots lots s.realized).1.map (·.qty.toInt))
  | .cash c => fitsWord (s.cash.toInt + c.amount.toInt)
  | .inert _ => true

/-- Whether applying each entry of a log in turn computes every amount exactly. -/
def exactRun : Standing → List Entry → Bool
  | _, [] => true
  | s, e :: es => s.exact e && exactRun (s.apply e) es

theorem exactRun_append (s : Standing) (es es' : List Entry) :
    s.exactRun (es ++ es') = (s.exactRun es && (es.foldl apply s).exactRun es') := by
  induction es generalizing s with
  | nil => simp [exactRun]
  | cons e es ih => simp [exactRun, ih, Bool.and_assoc]

/-- A checked fill moves what the holdings cost by its signed notional and the profit it realizes. -/
theorem cost_applyFill {s : Standing} {f : Fill} (hs : s.holdings.Sound) (hc : f.check = none) :
    (s.applyFill f).holdings.cost = s.holdings.cost + f.side.sign * (f.qty.toInt * f.price.toInt) +
      (f.gains ((s.holdings.find? f.symbol).getD { symbol := f.symbol }).lots).sum := by
  obtain ⟨sells, hside⟩ := Fill.side_of_check hc
  have hq := (Fill.check_eq_none_iff.1 hc).2.2.1
  obtain ⟨hsym, hone, -⟩ := hs.position f.symbol
  have htrade := @Fifo.trade_cost sells _ s.realized _ f.price hone hq
  rw [holdings_applyFill rfl hside hone hq, Fill.gains_of_side hside, hside, Side.sign_of_sells]
  split
  · rename_i hempty
    rw [hempty, Fifo.cost_nil] at htrade
    rw [Holdings.cost_erase hs.sorted]
    cases sells <;> simp only [if_true, if_false, Bool.false_eq_true] at htrade ⊢ <;> linear_combination htrade
  · rw [Holdings.cost_put hs.sorted]
    dsimp only
    rw [hsym, htrade]
    cases sells <;> simp only [if_true, if_false, Bool.false_eq_true] <;> ring

/-- The realized profit after a checked fill is its gains added exactly, while they and every
running total fit. -/
theorem toInt_realized_applyFill {s : Standing} {f : Fill} (hc : f.check = none)
    (hg : (f.gains ((s.holdings.find? f.symbol).getD { symbol := f.symbol }).lots).all fitsWord = true)
    (hsum : sumsFit s.realized.toInt (f.gains ((s.holdings.find? f.symbol).getD { symbol := f.symbol }).lots) = true) :
    (s.applyFill f).realized.toInt =
      s.realized.toInt + (f.gains ((s.holdings.find? f.symbol).getD { symbol := f.symbol }).lots).sum := by
  obtain ⟨sells, hside⟩ := Fill.side_of_check hc
  rw [Fill.gains_of_side hside] at hg hsum ⊢
  show (f.onLots _ s.realized).2.toInt = _
  rw [Fill.onLots_of_side hside, Fifo.realized_trade, foldl_satAdd_clampWord_toInt hg hsum]

/-- A checked fill keeps every running net quantity of the holdings in a word when it does so for
its own position. -/
theorem netsFit_applyFill {s : Standing} {f : Fill} (hs : s.holdings.Sound) (hn : s.holdings.NetsFit)
    (hc : f.check = none)
    (hnet : sumsFit 0 ((f.onLots ((s.holdings.find? f.symbol).getD { symbol := f.symbol }).lots
      s.realized).1.map (·.qty.toInt)) = true) :
    (s.applyFill f).holdings.NetsFit := by
  obtain ⟨sells, hside⟩ := Fill.side_of_check hc
  have hq := (Fill.check_eq_none_iff.1 hc).2.2.1
  obtain ⟨-, hone, -⟩ := hs.position f.symbol
  rw [Fill.onLots_of_side hside] at hnet
  rw [holdings_applyFill rfl hside hone hq]
  split
  · exact fun p hp => hn p (Holdings.mem_erase hp).1
  · intro p hp
    rcases Holdings.mem_put hp with rfl | hp
    · exact hnet
    · exact hn p hp

end Standing

/-! ### Valuation at marks -/

namespace Holdings

/-- A lot's unrealized profit is its signed quantity at the difference between mark and entry,
whichever its side. -/
theorem lotProfit_eq (mark : Int64) (l : Lot) : lotProfit mark l = (mark.toInt - l.entry.toInt) * l.qty.toInt := by
  unfold lotProfit
  split
  · rfl
  · split
    · ring
    · rename_i hpos hneg
      rw [pos_iff_toInt] at hpos
      rw [neg_iff_toInt] at hneg
      rw [show l.qty.toInt = 0 by omega, mul_zero]

/-- The unrealized profit of lots is the quantity they hold at the mark, less what they cost. -/
theorem sum_lotProfit (mark : Int64) (lots : List Lot) :
    (lots.map (lotProfit mark)).sum = mark.toInt * Fifo.held lots - Fifo.cost lots := by
  induction lots with
  | nil => simp
  | cons l rest ih =>
    rw [List.map_cons, List.sum_cons, ih, lotProfit_eq, Fifo.held_cons, Fifo.cost_cons]
    ring

/-- Positions valued at the marks are worth what their lots cost plus their unrealized profit,
while every running net quantity fits a word. -/
theorem netExact_eq {h : Holdings} (hn : h.NetsFit) (marks : Marks) :
    h.netExact marks = h.cost + h.unrealizedExact marks := by
  simp only [netExact, unrealizedExact, ← List.sum_eq_foldl, sum_lotProfit]
  induction h with
  | nil => simp
  | cons p rest ih =>
    simp only [List.map_cons, List.sum_cons, cost_cons]
    rw [ih (fun q hq => hn q (List.mem_cons_of_mem p hq)), Position.toInt_qtySigned (hn p List.mem_cons_self)]
    ring

theorem equity_eq {h : Holdings} (hn : h.NetsFit) (cash : Int64) (marks : Marks) :
    h.equity cash marks = clampWord (cash.toInt + h.cost + h.unrealizedExact marks) := by
  rw [equity, netExact_eq hn, add_assoc]

end Holdings

/-! ### The ledger balances -/

/-- The fee an entry charges: a fill's fee, and nothing for other entries. -/
def Entry.fee : Entry → Int
  | .fill f => f.fee.toInt
  | _ => 0

/-- The cash an entry adjusts by: a cash entry's amount, and nothing for other entries. -/
def Entry.adjustment : Entry → Int
  | .cash c => c.amount.toInt
  | _ => 0

/-- The fees a log charges. -/
def feesIn (es : List Entry) : Int := (es.map Entry.fee).sum

/-- The cash adjustments of a log. -/
def adjustmentsIn (es : List Entry) : Int := (es.map Entry.adjustment).sum

@[simp] theorem feesIn_append (es es' : List Entry) : feesIn (es ++ es') = feesIn es + feesIn es' := by
  simp [feesIn]

@[simp] theorem feesIn_singleton (e : Entry) : feesIn [e] = e.fee := by
  simp [feesIn]

@[simp] theorem adjustmentsIn_append (es es' : List Entry) :
    adjustmentsIn (es ++ es') = adjustmentsIn es + adjustmentsIn es' := by
  simp [adjustmentsIn]

@[simp] theorem adjustmentsIn_singleton (e : Entry) : adjustmentsIn [e] = e.adjustment := by
  simp [adjustmentsIn]

namespace Ledger

/-- The accounts of a ledger balance: its holdings are sound with every running net quantity in a
word, and cash plus what the open lots cost is the initial cash plus the realized profit, less
the fees of the log, plus its cash adjustments. -/
structure Balanced (l : Ledger) : Prop where
  sound : l.standing.holdings.Sound
  nets : l.standing.holdings.NetsFit
  balance : l.standing.cash.toInt + l.standing.holdings.cost =
    l.initialCash.toInt + l.standing.realized.toInt - feesIn l.entries + adjustmentsIn l.entries

theorem balanced_new (c : Int64) : (Ledger.new c).Balanced :=
  ⟨Holdings.sound_nil, fun _ hp => (by cases hp), by simp [Ledger.new, feesIn, adjustmentsIn]⟩

/-- Logging a checked entry that saturates nothing keeps the accounts balanced: a fill moves cash
by its notional and fee, what the lots cost by its notional and realized profit, and the realized
profit by that profit; a cash entry moves cash by its amount. -/
theorem Balanced.record {l : Ledger} {e : Entry} (h : l.Balanced) (he : e.Checked)
    (hx : l.standing.exact e = true) : (l.record e).Balanced := by
  cases e with
  | fill f =>
    have hc : f.check = none := he
    simp only [Standing.exact, Bool.and_eq_true] at hx
    obtain ⟨⟨⟨⟨⟨hn, hm⟩, hf⟩, hg⟩, hsum⟩, hnet⟩ := hx
    refine ⟨(Sound.applyFill h.sound hc).1, Standing.netsFit_applyFill h.sound h.nets hc hnet, ?_⟩
    have hcash : (l.standing.applyFill f).cash = f.cashAfter l.standing.cash := rfl
    simp only [record_standing, record_entries, record_initialCash, Standing.apply, feesIn_append,
      feesIn_singleton, adjustmentsIn_append, adjustmentsIn_singleton, Entry.fee, Entry.adjustment]
    rw [hcash, Fill.toInt_cashAfter hn hm hf, Standing.cost_applyFill h.sound hc,
      Standing.toInt_realized_applyFill hc hg hsum]
    linarith [h.balance]
  | cash c =>
    refine ⟨h.sound, h.nets, ?_⟩
    simp only [record_standing, record_entries, record_initialCash, Standing.apply, feesIn_append,
      feesIn_singleton, adjustmentsIn_append, adjustmentsIn_singleton, Entry.fee, Entry.adjustment]
    rw [toInt_satAdd_of_fits hx]
    linarith [h.balance]
  | inert k =>
    refine ⟨h.sound, h.nets, ?_⟩
    simp only [record_standing, record_entries, record_initialCash, Standing.apply, feesIn_append,
      feesIn_singleton, adjustmentsIn_append, adjustmentsIn_singleton, Entry.fee, Entry.adjustment]
    linarith [h.balance]

theorem Balanced.recordAll {l : Ledger} (h : l.Balanced) {es : List Entry} (hes : ∀ e ∈ es, e.Checked)
    (hx : l.standing.exactRun es = true) : (l.recordAll es).Balanced := by
  induction es generalizing l with
  | nil => exact h
  | cons e es ih =>
    simp only [Standing.exactRun, Bool.and_eq_true] at hx
    rw [recordAll_cons]
    exact ih (h.record (hes e List.mem_cons_self) hx.1) (fun e' he' => hes e' (List.mem_cons_of_mem e he')) hx.2

theorem Balanced.perform {l l' : Ledger} {op : Op} (h : l.Balanced) (hp : l.perform op = .ok l')
    (hx : l.standing.exactRun op.entries = true) : l'.Balanced := by
  have hb := h.recordAll (checked_of_perform_ok hp) hx
  rw [perform_ok hp]
  exact ⟨hb.sound, hb.nets, hb.balance⟩

/-- The accounts stay balanced over a run whose accepted entries saturate nothing; refused
operations change nothing. -/
theorem Balanced.run {l : Ledger} (h : l.Balanced) (ops : List Op)
    (hx : l.standing.exactRun (l.accepted ops) = true) : (l.run ops).Balanced := by
  induction ops generalizing l with
  | nil => exact h
  | cons op ops ih =>
    cases hp : l.perform op with
    | error e =>
      simp only [accepted, hp] at hx
      simp only [Ledger.run, hp]
      exact ih h hx
    | ok l' =>
      simp only [accepted, hp, Standing.exactRun_append, Bool.and_eq_true] at hx
      have hstanding : l'.standing = op.entries.foldl Standing.apply l.standing := by
        rw [perform_ok hp, standing_withLastSeq, standing_recordAll]
      simp only [Ledger.run, hp]
      exact ih (h.perform hp hx.1) (by rw [hstanding]; exact hx.2)

/-- **The accounts balance.** After any operations on a new ledger whose accepted entries
saturate nothing, cash plus what the open lots cost is the initial cash plus the realized profit,
less the fees of the log, plus its cash adjustments. At any marks the equity is that sum plus the
exact unrealized profit, clamped to a word once; so it is the initial cash plus the realized and
the unrealized profit, less fees, plus adjustments, whenever the exact unrealized profit and that
total fit a word. -/
theorem accounts_balance (c : Int64) (ops : List Op)
    (hx : (Ledger.new c).standing.exactRun ((Ledger.new c).accepted ops) = true) (marks : Marks) :
    let l := (Ledger.new c).run ops
    let k := c.toInt + l.standing.realized.toInt - feesIn l.entries + adjustmentsIn l.entries
    l.standing.cash.toInt + l.standing.holdings.cost = k ∧
      l.standing.holdings.equity l.standing.cash marks = clampWord (k + l.standing.holdings.unrealizedExact marks) ∧
      (fitsWord (l.standing.holdings.unrealizedExact marks) = true →
        fitsWord (k + l.standing.holdings.unrealizedExact marks) = true →
        (l.standing.holdings.equity l.standing.cash marks).toInt =
          c.toInt + l.standing.realized.toInt + (l.standing.holdings.unrealized marks).toInt -
            feesIn l.entries + adjustmentsIn l.entries) := by
  have hb := (balanced_new c).run ops hx
  have hinit : ((Ledger.new c).run ops).initialCash = c := run_initialCash _ _
  have hbal := hb.balance
  rw [hinit] at hbal
  intro l k
  have hequity : l.standing.holdings.equity l.standing.cash marks =
      clampWord (k + l.standing.holdings.unrealizedExact marks) := by
    rw [Holdings.equity_eq hb.nets, hbal]
  refine ⟨hbal, hequity, fun hu hk => ?_⟩
  rw [hequity, toInt_clampWord_of_fits hk, Holdings.unrealized, toInt_clampWord_of_fits hu]
  simp only [k]
  ring

/-- A round trip in one symbol and a deposit, valued at a mark between the two prices. -/
theorem accounts_balance_of_round_trip :
    let ops : List Op := [.fill ⟨"A", .buy, 5, 10, 1⟩, .fill ⟨"A", .sell, 3, 12, 1⟩, .cash 7 "deposit"]
    let l := (Ledger.new 1000).run ops
    let k := (1000 : Int64).toInt + l.standing.realized.toInt - feesIn l.entries + adjustmentsIn l.entries
    let marks : Marks := [("A", 11)]
    (Ledger.new 1000).standing.exactRun ((Ledger.new 1000).accepted ops) = true ∧
      (l.standing.cash.toInt + l.standing.holdings.cost = k ∧
        l.standing.holdings.equity l.standing.cash marks = clampWord (k + l.standing.holdings.unrealizedExact marks) ∧
        (fitsWord (l.standing.holdings.unrealizedExact marks) = true →
          fitsWord (k + l.standing.holdings.unrealizedExact marks) = true →
          (l.standing.holdings.equity l.standing.cash marks).toInt =
            (1000 : Int64).toInt + l.standing.realized.toInt + (l.standing.holdings.unrealized marks).toInt -
              feesIn l.entries + adjustmentsIn l.entries)) :=
  ⟨by decide, accounts_balance _ _ (by decide) _⟩

/-- At marks far enough out the valuations clamp, each on its own, and the equity is no longer
the sum: the least cash but one, two bought at no price and marked at the greatest word, has
equity the greatest word, while the initial cash plus the unrealized profit, clamped to the
greatest word, comes to zero. -/
theorem equity_clamps_at_extreme_marks :
    let c : Int64 := -9223372036854775807
    let ops : List Op := [.fill ⟨"A", .buy, 2, 0, 0⟩]
    let marks : Marks := [("A", 9223372036854775807)]
    let l := (Ledger.new c).run ops
    (Ledger.new c).standing.exactRun ((Ledger.new c).accepted ops) = true ∧
      (l.standing.holdings.equity l.standing.cash marks).toInt ≠
        c.toInt + l.standing.realized.toInt + (l.standing.holdings.unrealized marks).toInt -
          feesIn l.entries + adjustmentsIn l.entries := by
  decide

end Ledger

end TradeDesk
