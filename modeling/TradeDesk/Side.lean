import TradeDesk.Fault
import TradeDesk.Text.Quoted
/-!
# Sides

The direction of an order or a fill. Only buying and selling are valid; any other text is kept as
it came, because a ledger entry or a stored order records the side it was given, and refuses it
only where a valid side is required. Such a text carries the proof that it is neither `"BUY"` nor
`"SELL"`, so every side has one text and every text one side: `Side.ofText`, which reads exactly
the two spellings in upper case, undoes `Side.toText` (`Side.ofText_toText`). `Side.parse` reads
the three usual spellings of each.
-/


namespace TradeDesk

/-- The direction of an order or a fill. -/
inductive Side where
  | buy
  | sell
  /-- A text that names no side. -/
  | other (text : String) (unnamed : text ≠ "BUY" ∧ text ≠ "SELL")
  deriving Repr, DecidableEq, Inhabited

namespace Side

/-- The side a text names exactly; any other text is kept as it is. -/
def ofText (t : String) : Side :=
  if hb : t = "BUY" then .buy else if hs : t = "SELL" then .sell else .other t ⟨hb, hs⟩

/-- The side of a record that names none: the empty text. -/
def blank : Side := .other "" ⟨by decide, by decide⟩

/-- The text of a side. -/
def toText : Side → String
  | .buy => "BUY"
  | .sell => "SELL"
  | .other t _ => t

/-- Whether the side is one of the two known sides. -/
def valid : Side → Bool
  | .other _ _ => false
  | _ => true

/-- The place of a side in the canonical order of fills: buying comes first. -/
def rank : Side → Nat
  | .buy => 0
  | _ => 1

/-- Reads a side written in upper case, lower case or with a capital initial. -/
def parse (t : String) : Except Fault Side :=
  if t = "BUY" ∨ t = "buy" ∨ t = "Buy" then .ok .buy
  else if t = "SELL" ∨ t = "sell" ∨ t = "Sell" then .ok .sell
  else .error (.plain ("model: unknown side " ++ Text.quote t))

@[simp] theorem toText_ofText (t : String) : (ofText t).toText = t := by
  unfold ofText
  split
  · subst_vars; rfl
  · split
    · subst_vars; rfl
    · rfl

@[simp] theorem ofText_toText (s : Side) : ofText s.toText = s := by
  cases s with
  | buy => rfl
  | sell => rfl
  | other t h => rw [toText, ofText, dif_neg h.1, dif_neg h.2]

end Side

end TradeDesk
