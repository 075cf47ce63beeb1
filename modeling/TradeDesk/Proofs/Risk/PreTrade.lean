import TradeDesk.Proofs.Desk.Gates
import TradeDesk.Proofs.Ledger.Accounting
/-!
# The pre-trade check against the book after the trade

`Limiter.check` decides whether a change of a symbol's quantity keeps the caps without building
the book after the trade. It values the symbol's new position alone, clamped to a word, and
compares the clamped gross exposure of the other symbols with the gross cap less that value, a
subtraction of words that wraps. The whole-book check, `Holdings.enforceCap`, values the book after
the trade at once (`Limiter.afterTrade`).

The per-symbol verdict is the symbol's clamped exposure against its cap, for every book
(`check_refuses_symbol_iff`). The gross
verdict agrees with the whole-book check whenever none of the figures it is made of leaves the range of words: the
symbol's new quantity, its exposure, the gross exposure of the other symbols and of the whole book,
and the cap less the symbol's exposure (`check_agrees_with_book`). Outside that range the two part
ways. A negative mark makes the symbol's exposure negative, and the cap less it wraps below zero
(`check_refuses_by_wrapping`); with the cap at the top word, clamping the two parts separately
adds up to more than the clamped whole.
-/

namespace TradeDesk

/-- A difference of words that fits a word is the difference of the integers. -/
theorem toInt_sub_of_fits {a b : Int64} (h : fitsWord (a.toInt - b.toInt) = true) : (a - b).toInt = a.toInt - b.toInt := by
  obtain ⟨lo, hi⟩ := fitsWord_iff.1 h
  rw [Int64.toInt_minValue] at lo
  rw [Int64.toInt_maxValue] at hi
  rw [Int64.toInt_sub]
  exact Int.bmod_eq_of_le (by omega) (by omega)

namespace Holdings

theorem grossExact_eq_sum (h : Holdings) (marks : Marks) :
    h.grossExact marks = (h.map fun p => (p.qtySigned.toInt.natAbs : Int) * (marks.markOf p.symbol).toInt).sum := by
  rw [grossExact, List.sum_eq_foldl]

theorem grossExact_append (a b : Holdings) (marks : Marks) :
    (a ++ b).grossExact marks = a.grossExact marks + b.grossExact marks := by
  simp only [grossExact_eq_sum, List.map_append, List.sum_append]

/-- The whole-book check refuses exactly a gross exposure above the cap. -/
theorem enforceCap_toBool_eq_false_iff (h : Holdings) (marks : Marks) (cap : Int64) :
    (h.enforceCap marks cap).toBool = false ↔ cap < (h.exposure marks).gross := by
  rw [← Int64.not_le, ← enforceCap_ok_iff]
  cases h.enforceCap marks cap <;> simp [Except.toBool]

end Holdings

theorem Position.qtySigned_single (symbol : String) (l : Lot) : ({ symbol, lots := [l] } : Position).qtySigned = l.qty := by
  simp only [qtySigned, List.foldl_cons, List.foldl_nil, satAdd, Int64.toInt_zero, Int.zero_add, clampWord_toInt_self]

namespace Limiter

/-- The book after a change of `delta` in a symbol's quantity: the other positions as they are, and
the symbol's position replaced by one lot holding its new quantity, at its mark. -/
def afterTrade (l : Limiter) (symbol : String) (delta mark : Int64) : Holdings :=
  l.holdings.erase symbol ++ [{ symbol, lots := [{ qty := l.holdings.qtyOf symbol + delta, entry := mark }] }]

/-- The exact gross exposure after the trade: the other symbols' and the symbol's new position at
its mark. -/
theorem grossExact_afterTrade (l : Limiter) {symbol : String} (delta : Int64) {mark : Int64}
    (hmark : l.marks.lookup symbol = some mark) :
    (l.afterTrade symbol delta mark).grossExact l.marks =
      (l.holdings.erase symbol).grossExact l.marks +
        ((l.holdings.qtyOf symbol + delta).toInt.natAbs : Int) * mark.toInt := by
  rw [afterTrade, Holdings.grossExact_append, Holdings.grossExact_eq_sum [_]]
  simp [Position.qtySigned_single, Marks.markOf, hmark]

/-- With a mark for the symbol, the check is the per-symbol verdict on the symbol's new exposure,
clamped, and then the gross verdict on the cap less that exposure. -/
theorem check_of_mark (l : Limiter) (symbol : String) (delta : Int64) {mark : Int64}
    (hmark : l.marks.lookup symbol = some mark) :
    l.check symbol delta =
      let exposure := clampWord (((l.holdings.qtyOf symbol + delta).toInt.natAbs : Int) * mark.toInt)
      if 0 < l.maxPerSymbol ∧ l.maxPerSymbol < exposure then
        .error (.because .symbolLimit "risk: per-symbol exposure limit exceeded")
      else if 0 < l.maxGross ∧ l.maxGross - exposure < ((l.holdings.erase symbol).exposure l.marks).gross then
        .error (.because .grossLimit "risk: gross exposure limit exceeded")
      else .ok () := by
  unfold check
  rw [hmark]
  rfl

/-- **The per-symbol verdict holds for every book.** For a symbol with a mark, the check refuses on
the per-symbol cap exactly when that cap is positive and the symbol's new exposure, clamped to a
word, exceeds it, whatever the other positions, the marks and the gross cap are. -/
theorem check_refuses_symbol_iff (l : Limiter) (symbol : String) (delta : Int64) {mark : Int64}
    (hmark : l.marks.lookup symbol = some mark) :
    l.check symbol delta = .error (.because .symbolLimit "risk: per-symbol exposure limit exceeded") ↔
      0 < l.maxPerSymbol ∧
        l.maxPerSymbol < clampWord (((l.holdings.qtyOf symbol + delta).toInt.natAbs : Int) * mark.toInt) := by
  rw [check_of_mark l symbol delta hmark]
  dsimp only
  by_cases hsym : 0 < l.maxPerSymbol ∧
      l.maxPerSymbol < clampWord (((l.holdings.qtyOf symbol + delta).toInt.natAbs : Int) * mark.toInt)
  · rw [if_pos hsym]
    exact iff_of_true rfl hsym
  · rw [if_neg hsym]
    split <;> exact iff_of_false (by simp [Fault.because]) hsym

/-- **The pre-trade check agrees with the whole-book check.** For a symbol with a mark and a change
that does not overflow its quantity, the check refuses on the per-symbol cap exactly when the cap is
positive and the symbol's new exposure, clamped, exceeds it. Otherwise, while the symbol's
exposure, the gross exposure of the other symbols and of the whole book after the trade, and the
gross cap less the symbol's exposure all fit a word, it refuses on the gross cap exactly when that
cap is positive and the whole-book check of the book after the trade reports a breach. -/
theorem check_agrees_with_book (l : Limiter) (symbol : String) (delta : Int64) {mark : Int64}
    (hmark : l.marks.lookup symbol = some mark)
    (hq : fitsWord ((l.holdings.qtyOf symbol).toInt + delta.toInt) = true)
    (hX : fitsWord (((l.holdings.qtyOf symbol + delta).toInt.natAbs : Int) * mark.toInt) = true)
    (hS : fitsWord ((l.holdings.erase symbol).grossExact l.marks) = true)
    (hB : fitsWord ((l.afterTrade symbol delta mark).grossExact l.marks) = true)
    (hM : fitsWord (l.maxGross.toInt - ((l.holdings.qtyOf symbol + delta).toInt.natAbs : Int) * mark.toInt) = true) :
    l.check symbol delta =
      if 0 < l.maxPerSymbol ∧
          l.maxPerSymbol < clampWord ((((l.holdings.qtyOf symbol).toInt + delta.toInt).natAbs : Int) * mark.toInt) then
        .error (.because .symbolLimit "risk: per-symbol exposure limit exceeded")
      else if 0 < l.maxGross ∧ ((l.afterTrade symbol delta mark).enforceCap l.marks l.maxGross).toBool = false then
        .error (.because .grossLimit "risk: gross exposure limit exceeded")
      else .ok () := by
  have hnew : (l.holdings.qtyOf symbol + delta).toInt = (l.holdings.qtyOf symbol).toInt + delta.toInt :=
    toInt_add_of_le (fitsWord_iff.1 hq).1 (fitsWord_iff.1 hq).2
  have hE := toInt_clampWord_of_fits hX
  have hcap : (l.maxGross - clampWord (((l.holdings.qtyOf symbol + delta).toInt.natAbs : Int) * mark.toInt)).toInt =
      l.maxGross.toInt - ((l.holdings.qtyOf symbol + delta).toInt.natAbs : Int) * mark.toInt := by
    rw [toInt_sub_of_fits (by rwa [hE]), hE]
  have hothers : ((l.holdings.erase symbol).exposure l.marks).gross.toInt = (l.holdings.erase symbol).grossExact l.marks :=
    toInt_clampWord_of_fits hS
  have hbook : ((l.afterTrade symbol delta mark).exposure l.marks).gross.toInt =
      (l.holdings.erase symbol).grossExact l.marks +
        ((l.holdings.qtyOf symbol + delta).toInt.natAbs : Int) * mark.toInt := by
    rw [← grossExact_afterTrade l delta hmark]
    exact toInt_clampWord_of_fits hB
  have hgross : l.maxGross - clampWord (((l.holdings.qtyOf symbol + delta).toInt.natAbs : Int) * mark.toInt) <
        ((l.holdings.erase symbol).exposure l.marks).gross ↔
      ((l.afterTrade symbol delta mark).enforceCap l.marks l.maxGross).toBool = false := by
    rw [Holdings.enforceCap_toBool_eq_false_iff, Int64.lt_iff_toInt_lt, Int64.lt_iff_toInt_lt, hcap, hothers, hbook]
    omega
  rw [check_of_mark l symbol delta hmark]
  dsimp only
  rw [← hnew]
  by_cases hsym : 0 < l.maxPerSymbol ∧
      l.maxPerSymbol < clampWord (((l.holdings.qtyOf symbol + delta).toInt.natAbs : Int) * mark.toInt)
  · rw [if_pos hsym, if_pos hsym]
  · rw [if_neg hsym, if_neg hsym]
    simp only [hgross]

/-- Buying 3 of a symbol marked at 10 with none held, with caps of 50 on the symbol and 100 on the
book. -/
theorem check_agrees_with_book_buying_three :
    [("A", (10 : Int64))].lookup "A" = some 10 ∧
      fitsWord ((Holdings.qtyOf [] "A").toInt + (3 : Int64).toInt) = true ∧
      fitsWord (((Holdings.qtyOf [] "A" + 3).toInt.natAbs : Int) * (10 : Int64).toInt) = true ∧
      fitsWord (Holdings.grossExact (Holdings.erase [] "A") [("A", 10)]) = true ∧
      fitsWord ((({ maxGross := 100, maxPerSymbol := 50, marks := [("A", 10)] } : Limiter).afterTrade "A" 3 10).grossExact
        [("A", 10)]) = true ∧
      fitsWord ((100 : Int64).toInt - ((Holdings.qtyOf [] "A" + 3).toInt.natAbs : Int) * (10 : Int64).toInt) = true ∧
      ({ maxGross := 100, maxPerSymbol := 50, marks := [("A", 10)] } : Limiter).check "A" 3 =
        if 0 < (50 : Int64) ∧
            (50 : Int64) < clampWord (((Holdings.qtyOf [] "A").toInt + (3 : Int64).toInt).natAbs * (10 : Int64).toInt) then
          .error (.because .symbolLimit "risk: per-symbol exposure limit exceeded")
        else if 0 < (100 : Int64) ∧
            ((({ maxGross := 100, maxPerSymbol := 50, marks := [("A", 10)] } : Limiter).afterTrade "A" 3 10).enforceCap [("A", 10)] 100).toBool = false then
          .error (.because .grossLimit "risk: gross exposure limit exceeded")
        else .ok () :=
  ⟨rfl, by decide, by decide, by decide, by decide, by decide,
    check_agrees_with_book ({ maxGross := 100, maxPerSymbol := 50, marks := [("A", 10)] } : Limiter) "A" 3 rfl (by decide) (by decide) (by decide)
      (by decide) (by decide)⟩

/-- A symbol bought from zero up to the top word at a mark of −1, against a gross cap of 2: the book
after the trade has a negative gross exposure, within the cap, but the cap less the symbol's
exposure, `2 − (−(2⁶³ − 1))`, wraps to `−(2⁶³ − 1)` and the check refuses. -/
theorem check_refuses_by_wrapping :
    ({ maxGross := 2, maxPerSymbol := 0, marks := [("S", -1)] } : Limiter).check "S" 9223372036854775807 =
        .error (.because .grossLimit "risk: gross exposure limit exceeded") ∧
      ((({ maxGross := 2, maxPerSymbol := 0, marks := [("S", -1)] } : Limiter).afterTrade "S" 9223372036854775807
        (-1)).enforceCap [("S", -1)] 2).toBool = true := by
  constructor
  · rfl
  · decide

end Limiter

end TradeDesk
