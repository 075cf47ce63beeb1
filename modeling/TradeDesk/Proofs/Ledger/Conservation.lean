import TradeDesk.Proofs.Ledger.Lots
import TradeDesk.Proofs.Ledger.Sequenced
/-!
# The holdings conserve the fills

The ledger keeps its holdings `Sound`: ordered strictly by symbol, so a map, and every position
in it has lots, all on one side. A checked fill keeps them so, and changes what they hold in its
own symbol alone, by its signed quantity (`Sound.applyFill`): the walk keeps the position's lots
on one side, and a position left without lots is dropped.

`Conserves` is the invariant over a ledger: its holdings are sound and hold in each symbol
exactly what its log traded in it. A new ledger has it, and every operation the ledger accepts
logs only checked fills, so every run of operations keeps it. Lots on one side never hold zero,
and their saturated net quantity is never zero either, so a symbol is missing from the holdings
exactly when its fills net to zero (`positions_conserve_fills`).
-/

namespace TradeDesk

/-- What an entry of the log trades in a symbol: a fill of it its signed quantity, any other
entry nothing. -/
def Entry.traded (symbol : String) : Entry → Int
  | .fill f => if f.symbol = symbol then f.side.sign * f.qty.toInt else 0
  | _ => 0

/-- What a log trades in a symbol, exactly. -/
def tradedIn (symbol : String) (es : List Entry) : Int := (es.map (Entry.traded symbol)).sum

@[simp] theorem tradedIn_nil (symbol : String) : tradedIn symbol [] = 0 := rfl

@[simp] theorem tradedIn_append (symbol : String) (es es' : List Entry) :
    tradedIn symbol (es ++ es') = tradedIn symbol es + tradedIn symbol es' := by
  simp [tradedIn]

@[simp] theorem tradedIn_singleton (symbol : String) (e : Entry) : tradedIn symbol [e] = e.traded symbol := by
  simp [tradedIn]

/-- An entry the ledger may log: a fill that passed its check, or an entry that is no fill. -/
def Entry.Checked : Entry → Prop
  | .fill f => f.check = none
  | _ => True

namespace Holdings

/-- The quantity held in a symbol, exactly; zero when no position is held. -/
def held (h : Holdings) (symbol : String) : Int := ((h.find? symbol).map fun p => Fifo.held p.lots).getD 0

/-- The holdings a ledger keeps: ordered strictly by symbol, every position with lots, and the
lots of each on one side. -/
structure Sound (h : Holdings) : Prop where
  sorted : h.Sorted
  lots : ∀ p ∈ h, p.lots ≠ [] ∧ Fifo.OneSided p.lots

theorem sound_nil : Sound [] := ⟨List.Pairwise.nil, fun _ hp => by cases hp⟩

/-- The position a fill works on, the one held in its symbol or a new one, has that symbol and
its lots on one side, and holds what the holdings hold in the symbol. -/
theorem Sound.position {h : Holdings} (hs : h.Sound) (symbol : String) :
    ((h.find? symbol).getD { symbol }).symbol = symbol ∧ Fifo.OneSided ((h.find? symbol).getD { symbol }).lots ∧
      Fifo.held ((h.find? symbol).getD { symbol }).lots = h.held symbol := by
  cases hf : h.find? symbol with
  | none => exact ⟨rfl, ⟨true, fun _ hl => by cases hl⟩, by simp [held, hf]⟩
  | some p =>
    obtain ⟨hp, hsym⟩ := find?_eq_some hf
    exact ⟨hsym, (hs.lots p hp).2, by simp [held, hf]⟩

/-- Dropping a symbol keeps the holdings sound, and leaves nothing held in it. -/
theorem Sound.erase {h : Holdings} (hs : h.Sound) (symbol : String) :
    (h.erase symbol).Sound ∧ ∀ x, (h.erase symbol).held x = if symbol = x then 0 else h.held x := by
  refine ⟨⟨hs.sorted.erase symbol, fun p hp => hs.lots p (mem_erase hp).1⟩, fun x => ?_⟩
  by_cases hx : symbol = x <;> simp [held, find?_erase, hx]

/-- Setting a position with lots on one side keeps the holdings sound, and changes what they hold
in its symbol alone. -/
theorem Sound.put {h : Holdings} (hs : h.Sound) {p : Position} (hne : p.lots ≠ []) (hone : Fifo.OneSided p.lots) :
    (h.put p).Sound ∧ ∀ x, (h.put p).held x = if p.symbol = x then Fifo.held p.lots else h.held x := by
  refine ⟨⟨hs.sorted.put p, fun q hq => ?_⟩, fun x => ?_⟩
  · rcases mem_put hq with rfl | hq
    · exact ⟨hne, hone⟩
    · exact hs.lots q hq
  · by_cases hx : p.symbol = x <;> simp [held, find?_put, hx]

end Holdings

open Holdings

/-- A checked fill sets the lots of its position to those its trade leaves, and drops the
position when none are left. -/
theorem holdings_applyFill {s : Standing} {f : Fill} {sells : Bool} {pos : Position}
    (hpos : (s.holdings.find? f.symbol).getD { symbol := f.symbol } = pos)
    (hside : f.side = if sells then .sell else .buy) (hone : Fifo.OneSided pos.lots) (hq : 0 < f.qty.toInt) :
    (s.applyFill f).holdings =
      if (Fifo.trade sells pos.lots s.realized f.qty f.price).1 = [] then s.holdings.erase f.symbol
      else s.holdings.put { pos with lots := (Fifo.trade sells pos.lots s.realized f.qty f.price).1 } := by
  subst hpos
  obtain ⟨⟨long, hl⟩, -⟩ := @Fifo.trade_onSide sells _ s.realized _ f.price hone hq
  simp only [Standing.applyFill, Fill.onLots_of_side hside]
  rw [Position.isFlat_eq_isEmpty (p := { symbol := _, lots := _ }) hl]
  by_cases hempty : (Fifo.trade sells ((s.holdings.find? f.symbol).getD { symbol := f.symbol }).lots s.realized
    f.qty f.price).1 = [] <;> simp [hempty]

/-- **A checked fill keeps the holdings sound.** It changes what they hold in its own symbol
alone, by its signed quantity. -/
theorem Sound.applyFill {s : Standing} {f : Fill} (hs : s.holdings.Sound) (hc : f.check = none) :
    (s.applyFill f).holdings.Sound ∧ ∀ x, (s.applyFill f).holdings.held x = s.holdings.held x + (Entry.fill f).traded x := by
  obtain ⟨sells, hside⟩ := Fill.side_of_check hc
  have hq := (Fill.check_eq_none_iff.1 hc).2.2.1
  have htraded : ∀ x, (Entry.fill f).traded x = if f.symbol = x then (if sells then -f.qty.toInt else f.qty.toInt) else 0 := by
    intro x
    simp only [Entry.traded, hside, Side.sign_of_sells]
    cases sells <;> simp
  obtain ⟨hsym, hone, hheld⟩ := hs.position f.symbol
  rw [holdings_applyFill rfl hside hone hq]
  generalize (s.holdings.find? f.symbol).getD { symbol := f.symbol } = pos at hsym hone hheld ⊢
  obtain ⟨⟨long, hl⟩, hmoved⟩ := @Fifo.trade_onSide sells _ s.realized _ f.price hone hq
  split
  · rename_i hempty
    rw [hempty, Fifo.held_nil] at hmoved
    obtain ⟨hsound, hheld'⟩ := hs.erase f.symbol
    refine ⟨hsound, fun x => ?_⟩
    rw [hheld', htraded x]
    by_cases hx : f.symbol = x
    · subst hx
      rw [if_pos rfl, if_pos rfl, ← hheld]
      omega
    · rw [if_neg hx, if_neg hx]
      omega
  · rename_i hempty
    obtain ⟨hsound, hheld'⟩ := hs.put (p := { pos with lots := _ }) hempty ⟨long, hl⟩
    refine ⟨hsound, fun x => ?_⟩
    rw [hheld', htraded x]
    simp only [hsym]
    by_cases hx : f.symbol = x
    · subst hx
      rw [if_pos rfl, if_pos rfl, hmoved, hheld]
    · rw [if_neg hx, if_neg hx]
      omega

/-- A checked entry keeps the holdings sound, and changes what they hold by what it trades. -/
theorem Sound.apply {s : Standing} {e : Entry} (hs : s.holdings.Sound) (he : e.Checked) :
    (s.apply e).holdings.Sound ∧ ∀ x, (s.apply e).holdings.held x = s.holdings.held x + e.traded x := by
  cases e with
  | fill f => exact Sound.applyFill hs he
  | cash c => exact ⟨hs, fun x => by simp [Standing.apply, Entry.traded]⟩
  | inert k => exact ⟨hs, fun x => by simp [Standing.apply, Entry.traded]⟩

namespace Ledger

/-- The ledger's holdings are sound and hold in each symbol exactly what its log traded in it. -/
def Conserves (l : Ledger) : Prop :=
  l.standing.holdings.Sound ∧ ∀ x, l.standing.holdings.held x = tradedIn x l.entries

theorem conserves_new (c : Int64) : (Ledger.new c).Conserves :=
  ⟨sound_nil, fun x => by simp [Ledger.new, held, find?_nil]⟩

theorem Conserves.recordAll {l : Ledger} (h : l.Conserves) {es : List Entry} (hes : ∀ e ∈ es, e.Checked) :
    (l.recordAll es).Conserves := by
  induction es generalizing l with
  | nil => exact h
  | cons e es ih =>
    rw [recordAll_cons]
    refine ih ?_ (fun e' he' => hes e' (List.mem_cons_of_mem e he'))
    obtain ⟨hsound, hheld⟩ := Sound.apply h.1 (hes e List.mem_cons_self)
    refine ⟨hsound, fun x => ?_⟩
    rw [record_standing, record_entries, hheld, h.2 x, tradedIn_append, tradedIn_singleton]

/-- An operation the ledger accepts logs only checked entries. -/
theorem checked_of_perform_ok {l l' : Ledger} {op : Op} (hp : l.perform op = .ok l') : ∀ e ∈ op.entries, e.Checked := by
  cases op with
  | fill f =>
    simp only [perform, appendFill] at hp
    split at hp
    · cases hp
    · rename_i hc
      simpa [Op.entries, Entry.Checked] using hc
  | fillSeq f seq =>
    simp only [perform, appendFillSeq] at hp
    split at hp
    · cases hp
    · split at hp
      · cases hp
      · rename_i hc
        simpa [Op.entries, Entry.Checked] using hc
  | cash amount reason => simp [Op.entries, Entry.Checked]
  | batch fills =>
    have hcheck := (checkBatch_eq_none_iff.1 (applyCanonical_eq_ok.1 hp).1).1
    intro e he
    obtain ⟨tf, htf, rfl⟩ := List.mem_map.1 he
    exact hcheck tf htf

theorem Conserves.perform {l l' : Ledger} {op : Op} (h : l.Conserves) (hp : l.perform op = .ok l') : l'.Conserves := by
  rw [perform_ok hp]
  exact h.recordAll (checked_of_perform_ok hp)

theorem Conserves.run {l : Ledger} (h : l.Conserves) (ops : List Op) : (l.run ops).Conserves := by
  induction ops generalizing l with
  | nil => exact h
  | cons op ops ih =>
    cases hp : l.perform op with
    | error e => simp only [Ledger.run, hp]; exact ih h
    | ok l' => simp only [Ledger.run, hp]; exact ih (h.perform hp)

/-- **Positions conserve the fills.** After any operations on a new ledger, accepted or refused,
its holdings are a map from symbols to positions: ordered strictly by symbol, so that each
position is the one found under its own symbol. Every position has lots, all long or all short,
none of them the least word. The lots of a symbol hold exactly what the accepted fills of that
symbol traded, buys counted up and sells down; a symbol has no position exactly when that comes
to zero, and no position held has a net quantity of zero or is flat. -/
theorem positions_conserve_fills (c : Int64) (ops : List Op) :
    let h := ((Ledger.new c).run ops).standing.holdings
    h.Pairwise (·.symbol < ·.symbol) ∧
      (∀ p ∈ h, h.find? p.symbol = some p ∧ p.lots ≠ [] ∧
        ((∀ l ∈ p.lots, 0 < l.qty) ∨ (∀ l ∈ p.lots, l.qty < 0)) ∧ ∀ l ∈ p.lots, l.qty ≠ Int64.minValue) ∧
      (∀ s, h.held s = tradedIn s ((Ledger.new c).accepted ops)) ∧
      (∀ s, h.find? s = none ↔ tradedIn s ((Ledger.new c).accepted ops) = 0) ∧
      ∀ p ∈ h, p.qtySigned ≠ 0 ∧ p.isFlat = false := by
  obtain ⟨hs, hheld⟩ := (conserves_new c).run ops
  have hlog : ((Ledger.new c).run ops).entries = (Ledger.new c).accepted ops := by
    simp [run_entries, Ledger.new]
  rw [hlog] at hheld
  intro h
  refine ⟨hs.sorted, fun p hp => ?_, hheld, fun s => ?_, fun p hp => ?_⟩
  · obtain ⟨hne, long, hl⟩ := hs.lots p hp
    refine ⟨hs.sorted.find?_of_mem hp, hne, ?_, fun l hl' => Lot.ne_minValue (hl l hl')⟩
    cases long
    · exact .inr fun l hl' => neg_iff_toInt.2 ((Lot.onSide_false l).1 (hl l hl')).2
    · exact .inl fun l hl' => pos_iff_toInt.2 (hl l hl')
  · -- a position held holds something, so a symbol is missing exactly when nothing is held
    rw [← hheld s]
    constructor
    · intro hn
      show ((h.find? s).map fun p => Fifo.held p.lots).getD 0 = 0
      rw [hn]
      rfl
    · intro h0
      cases hf : h.find? s with
      | none => rfl
      | some p =>
        obtain ⟨hp, -⟩ := find?_eq_some hf
        obtain ⟨hne, long, hl⟩ := hs.lots p hp
        have h0' : ((h.find? s).map fun p => Fifo.held p.lots).getD 0 = 0 := h0
        rw [hf] at h0'
        exact absurd h0' (Fifo.held_ne_zero hne hl)
  · obtain ⟨hne, long, hl⟩ := hs.lots p hp
    refine ⟨Position.qtySigned_ne_zero hne hl, ?_⟩
    rw [Position.isFlat_eq_isEmpty hl]
    simpa using hne

end Ledger

end TradeDesk
