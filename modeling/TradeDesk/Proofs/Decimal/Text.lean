import TradeDesk.Decimal.Basic
import TradeDesk.Proofs.Json.RoundTrip
import TradeDesk.Proofs.Decimal.Rounding
import Mathlib.Data.List.TakeWhile
import Mathlib.Tactic.FieldSimp
/-!
# Reading back the text of a decimal

`Decimal.text` writes a decimal with an exponent that is not negative as the numeral of its value.
Otherwise it splits the digits of the magnitude of the coefficient that many places from the right,
with zeros in front when there are too few, drops the trailing zeros of the fraction, and writes the
point only when some digit of the fraction is left (`text_of_neg`). Either way the text is an
optional minus sign, digits, and perhaps a point and more digits.

`Decimal.read` takes such a text to the decimal whose coefficient is all the digits and whose
exponent is minus the number of digits after the point (`read_positional`). The zeros the text
dropped scale the coefficient and the exponent alike, so the decimal read back has the value of
the one written (`read_text`), for every decimal whose exponent is no lower than the least a read
decimal may have.
-/

namespace TradeDesk.Decimal

/-! ### Digit strings -/

theorem digitsValue_eq (ds : List Char) : digitsValue ds = Nat.ofDigitChars 10 ds 0 := rfl

theorem digitsValue_append (xs ys : List Char) :
    digitsValue (xs ++ ys) = 10 ^ ys.length * digitsValue xs + digitsValue ys := by
  rw [digitsValue_eq, Nat.ofDigitChars_append, Nat.ofDigitChars_eq_ofDigitChars_zero]
  rfl

theorem digitsValue_toDigits (n : Nat) : digitsValue (Nat.toDigits 10 n) = n := Nat.ofDigitChars_ten_toDigits

theorem digitsValue_zeros (k : Nat) : digitsValue (List.replicate k '0') = 0 := by
  rw [digitsValue_eq, Nat.ofDigitChars_replicate_zero, Nat.mul_zero]

/-- A list of characters is what is left once its trailing zeros are dropped, followed by zeros. -/
theorem eq_trim_append_zeros (l : List Char) :
    ∃ k, l = (l.reverse.dropWhile (· = '0')).reverse ++ List.replicate k '0' := by
  refine ⟨(l.reverse.takeWhile (· = '0')).length, ?_⟩
  have hz : l.reverse.takeWhile (· = '0') = List.replicate (l.reverse.takeWhile (· = '0')).length '0' :=
    List.eq_replicate_iff.2 ⟨rfl, fun c hc => by simpa using List.mem_takeWhile_imp hc⟩
  calc l = (l.reverse.takeWhile (· = '0') ++ l.reverse.dropWhile (· = '0')).reverse := by
        rw [List.takeWhile_append_dropWhile, List.reverse_reverse]
    _ = (l.reverse.dropWhile (· = '0')).reverse ++ (l.reverse.takeWhile (· = '0')).reverse := List.reverse_append
    _ = _ := congrArg _ ((congrArg List.reverse hz).trans List.reverse_replicate)

/-! ### Writing -/

theorem signed_body (neg : Prop) [Decidable neg] (ip fp : List Char) :
    (if neg then '-' :: (if fp.isEmpty then ip else ip ++ '.' :: fp) else (if fp.isEmpty then ip else ip ++ '.' :: fp)) =
      (if neg then ['-'] else []) ++ ip ++ (if fp = [] then [] else '.' :: fp) := by
  by_cases hn : neg <;> by_cases hf : fp = [] <;> simp [hn, hf]

/-- The integer part and the fraction a decimal with `places` places writes: the digits of the
magnitude split `places` from the right, with zeros in front when there are too few. -/
theorem split_digits (A places : Nat) :
    ∃ ip frac, (if (Nat.toDigits 10 A).length > places then
        ((Nat.toDigits 10 A).take ((Nat.toDigits 10 A).length - places), (Nat.toDigits 10 A).drop ((Nat.toDigits 10 A).length - places))
      else (['0'], List.replicate (places - (Nat.toDigits 10 A).length) '0' ++ Nat.toDigits 10 A)) = (ip, frac) ∧
      ip ≠ [] ∧ (∀ c ∈ ip ++ frac, c.isDigit) ∧ frac.length = places ∧ digitsValue (ip ++ frac) = A := by
  have hd : ∀ c ∈ Nat.toDigits 10 A, c.isDigit := fun c hc => Json.isDigit_of_mem_toDigits hc
  split
  · rename_i hlong
    refine ⟨_, _, rfl, ?_, ?_, ?_, ?_⟩
    · intro he
      rcases List.take_eq_nil_iff.1 he with he | he
      · omega
      · exact Nat.toDigits_ne_nil he
    · rw [List.take_append_drop]; exact hd
    · simp only [List.length_drop]; omega
    · rw [List.take_append_drop, digitsValue_toDigits]
  · rename_i hshort
    refine ⟨_, _, rfl, by simp, ?_, ?_, ?_⟩
    · intro c hc
      simp only [List.cons_append, List.nil_append, List.mem_cons, List.mem_append, List.mem_replicate] at hc
      rcases hc with rfl | ⟨_, rfl⟩ | hc
      · decide
      · decide
      · exact hd c hc
    · simp only [List.length_append, List.length_replicate]; omega
    · rw [show ['0'] ++ (List.replicate (places - (Nat.toDigits 10 A).length) '0' ++ Nat.toDigits 10 A) =
          List.replicate (places - (Nat.toDigits 10 A).length + 1) '0' ++ Nat.toDigits 10 A by
          rw [List.replicate_succ]; rfl]
      rw [digitsValue_append, digitsValue_zeros, Nat.mul_zero, Nat.zero_add, digitsValue_toDigits]

/-- The text of a decimal with a negative exponent: a minus sign for a negative coefficient, an
integer part, and the fraction less its trailing zeros after a point when any digit of it is left.
With the `k` zeros dropped after them, the two spell the magnitude of the coefficient. -/
theorem text_of_neg {d : Decimal} (h : d.exp < 0) :
    ∃ ip fp k, d.text = String.ofList ((if d.coeff < 0 then ['-'] else []) ++ ip ++ (if fp = [] then [] else '.' :: fp)) ∧
      ip ≠ [] ∧ (∀ c ∈ ip ++ fp, c.isDigit) ∧ fp.length + k = (-d.exp).toNat ∧
      10 ^ k * digitsValue (ip ++ fp) = d.coeff.natAbs := by
  obtain ⟨ip, frac, hsplit, hip, hd, hlen, hval⟩ := split_digits d.coeff.natAbs (-d.exp).toNat
  have htext : d.text = String.ofList ((if d.coeff < 0 then ['-'] else []) ++ ip ++
      (if (frac.reverse.dropWhile (· = '0')).reverse = [] then [] else '.' :: (frac.reverse.dropWhile (· = '0')).reverse)) := by
    unfold text
    rw [if_neg (Int.not_le.2 h)]
    simp only [hsplit]
    rw [signed_body]
  -- the fraction is what the text keeps of it, then the zeros it drops
  obtain ⟨k, hk⟩ := eq_trim_append_zeros frac
  generalize (frac.reverse.dropWhile (· = '0')).reverse = fp at hk htext
  subst hk
  refine ⟨ip, fp, k, htext, hip, fun c hc => hd c ?_, ?_, ?_⟩
  · rw [← List.append_assoc]
    exact List.mem_append_left _ hc
  · rw [← hlen, List.length_append, List.length_replicate]
  · rw [← hval, ← List.append_assoc, digitsValue_append (ip ++ fp), digitsValue_zeros, List.length_replicate, Nat.add_zero]

theorem ofInt_eq (x : Int) :
    Text.ofInt x = String.ofList ((if x < 0 then ['-'] else []) ++ Nat.toDigits 10 x.natAbs) := by
  rw [← String.toList_inj, String.toList_ofList]
  cases x with
  | ofNat n => simp [Text.ofInt, Text.ofNat]
  | negSucc n => simp [Text.ofInt, Text.ofNat]

/-! ### Reading -/

theorem readCoeff?_digits {ds : List Char} (hne : ds ≠ []) (hd : ∀ c ∈ ds, c.isDigit) :
    readCoeff? ds = some (digitsValue ds : Int) := by
  obtain ⟨d, r, rfl⟩ := List.exists_cons_of_ne_nil hne
  have hdd := hd d List.mem_cons_self
  have h1 : d ≠ '-' := fun h => by subst h; exact absurd hdd (by decide)
  have h2 : d ≠ '+' := fun h => by subst h; exact absurd hdd (by decide)
  unfold readCoeff?
  split
  · rename_i heq
    split at heq
    · rename_i ds' h; cases h; exact absurd rfl h1
    · rename_i ds' h; cases h; exact absurd rfl h2
    · cases heq
      rw [if_pos ⟨hne, List.all_eq_true.2 hd⟩]
      rfl

theorem readCoeff?_neg_digits {ds : List Char} (hne : ds ≠ []) (hd : ∀ c ∈ ds, c.isDigit) :
    readCoeff? ('-' :: ds) = some (-(digitsValue ds : Int)) := by
  unfold readCoeff?
  dsimp only
  rw [if_pos ⟨hne, List.all_eq_true.2 hd⟩]
  rfl

theorem readCoeff?_signed (neg : Prop) [Decidable neg] {ds : List Char} (hne : ds ≠ []) (hd : ∀ c ∈ ds, c.isDigit) :
    readCoeff? ((if neg then ['-'] else []) ++ ds) = some (if neg then -(digitsValue ds : Int) else digitsValue ds) := by
  by_cases h : neg
  · rw [if_pos h, if_pos h, List.singleton_append]
    exact readCoeff?_neg_digits hne hd
  · rw [if_neg h, if_neg h, List.nil_append]
    exact readCoeff?_digits hne hd

/-- A text of digits, minus signs and points has no exponent. -/
theorem exponentMark?_eq_none {cs : List Char} (h : ∀ c ∈ cs, c.isDigit ∨ c = '-' ∨ c = '.') :
    exponentMark? cs = none := by
  unfold exponentMark?
  rw [List.findIdx?_eq_none_iff]
  intro c hc
  rcases h c hc with hd | rfl | rfl
  · have he : c ≠ 'e' := fun he => by subst he; exact absurd hd (by decide)
    have hE : c ≠ 'E' := fun he => by subst he; exact absurd hd (by decide)
    simp [he, hE]
  · decide
  · decide

/-- A character missing from the start of a list is found where the rest finds it, that much later. -/
theorem idxOf?_append_of_not_mem {a : Char} :
    ∀ {xs : List Char} (ys : List Char), a ∉ xs → (xs ++ ys).idxOf? a = (ys.idxOf? a).map (· + xs.length)
  | [], ys, _ => by simp
  | x :: xs, ys, h => by
    have hx : x ≠ a := fun he => h (he ▸ List.mem_cons_self)
    rw [List.cons_append, List.idxOf?_cons, if_neg (by simpa using hx),
      idxOf?_append_of_not_mem ys (fun hm => h (List.mem_cons_of_mem _ hm)), Option.map_map]
    simp only [List.length_cons, Function.comp_def, Nat.add_assoc]

/-- An optional minus sign, digits, and perhaps a point and more digits, read as the decimal whose
coefficient is all the digits and whose exponent is minus the number after the point. -/
theorem read_positional (neg : Prop) [Decidable neg] {ip fp : List Char} (hip : ip ≠ [])
    (hipd : ∀ c ∈ ip, c.isDigit) (hfpd : ∀ c ∈ fp, c.isDigit) (hlen : fp.length ≤ 2147483648) :
    read (String.ofList ((if neg then ['-'] else []) ++ ip ++ (if fp = [] then [] else '.' :: fp))) =
      .ok ⟨if neg then -(digitsValue (ip ++ fp) : Int) else digitsValue (ip ++ fp), -(fp.length : Int)⟩ := by
  have hcoeff := readCoeff?_signed neg (List.append_ne_nil_of_left_ne_nil hip fp) (fun c hc => by
    rcases List.mem_append.1 hc with hc | hc
    · exact hipd c hc
    · exact hfpd c hc)
  have hsgn : ∀ c ∈ (if neg then ['-'] else []), c = '-' := by
    split <;> simp
  generalize (if neg then ['-'] else []) = sgn at hsgn hcoeff ⊢
  have hmark : exponentMark? (sgn ++ ip ++ (if fp = [] then [] else '.' :: fp)) = none := by
    apply exponentMark?_eq_none
    intro c hc
    simp only [List.mem_append] at hc
    rcases hc with (hc | hc) | hc
    · exact .inr (.inl (hsgn c hc))
    · exact .inl (hipd c hc)
    · split at hc
      · cases hc
      · rcases List.mem_cons.1 hc with rfl | hc
        · exact .inr (.inr rfl)
        · exact .inl (hfpd c hc)
  have hdot : '.' ∉ sgn ++ ip := by
    intro hm
    rcases List.mem_append.1 hm with hm | hm
    · exact absurd (hsgn _ hm) (by decide)
    · exact absurd (hipd _ hm) (by decide)
  have hfpdot : '.' ∉ fp := fun hm => absurd (hfpd _ hm) (by decide)
  have hmin : minExp = -2147483648 := rfl
  have hmax : maxExp = 2147483647 := rfl
  by_cases hfp : fp = []
  · rw [if_pos hfp] at hmark ⊢
    subst hfp
    simp only [List.append_nil] at hmark hcoeff ⊢
    have hidx : (sgn ++ ip).idxOf? '.' = none := List.idxOf?_eq_none_iff.2 hdot
    have hcount : (sgn ++ ip).count '.' = 0 := List.count_eq_zero.2 hdot
    unfold read
    simp only [String.toList_ofList]
    rw [hmark]
    simp only [hidx, hcount, hcoeff]
    simp [hmin, hmax]
  · rw [if_neg hfp] at hmark ⊢
    have hidx : (sgn ++ ip ++ '.' :: fp).idxOf? '.' = some (sgn ++ ip).length := by
      rw [idxOf?_append_of_not_mem _ hdot, List.idxOf?_cons, if_pos (beq_self_eq_true _), Option.map_some,
        Nat.zero_add]
    have hcount : (sgn ++ ip ++ '.' :: fp).count '.' = 1 := by
      rw [List.count_append, List.count_eq_zero.2 hdot, List.count_cons_self, List.count_eq_zero.2 hfpdot]
    have hdigits : (sgn ++ ip ++ '.' :: fp).take (sgn ++ ip).length ++
        (sgn ++ ip ++ '.' :: fp).drop ((sgn ++ ip).length + 1) = sgn ++ (ip ++ fp) := by
      rw [List.take_left, ← List.drop_drop, List.drop_left, List.append_assoc]
      rfl
    have hfrac : (sgn ++ ip ++ '.' :: fp).length - (sgn ++ ip).length - 1 = fp.length := by
      simp only [List.length_append, List.length_cons]
      omega
    unfold read
    simp only [String.toList_ofList]
    rw [hmark]
    simp only [hidx, hcount, hdigits, hfrac, hcoeff]
    simp [hmin, hmax]
    omega

/-! ### Reading back what was written -/

theorem signed_natAbs (x : Int) : (if x < 0 then -(x.natAbs : Int) else x.natAbs) = x := by
  split <;> omega

/-- A signed magnitude written with `len` places, `k` of its trailing zeros dropped, has the value
of the coefficient at `len + k` places. -/
theorem toRat_signed {c : Int} {V len k : Nat} (hc : 10 ^ k * V = c.natAbs) :
    ((if c < 0 then -(V : Int) else V : Int) : ℚ) * 10 ^ (-(len : Int)) = c * 10 ^ (-((len + k : Nat) : Int)) := by
  have hmag : (c.natAbs : ℚ) = 10 ^ k * V := by exact_mod_cast hc.symm
  have hsign : (c : ℚ) = if c < 0 then -(c.natAbs : ℚ) else c.natAbs := by
    split
    · rename_i hneg
      rw [Nat.cast_natAbs, Int.cast_abs, abs_of_neg (by exact_mod_cast hneg), neg_neg]
    · rename_i hneg
      rw [Nat.cast_natAbs, Int.cast_abs, abs_of_nonneg (by exact_mod_cast Int.not_lt.1 hneg)]
  rw [hsign, hmag, zpow_neg, zpow_neg, zpow_natCast, zpow_natCast, pow_add]
  split <;> push_cast <;> field_simp

/-- **The text of a decimal reads back as its value.** For a decimal whose exponent is no lower
than the least a read decimal may have, reading its text gives a decimal of the same value. -/
theorem read_text (d : Decimal) (h : minExp ≤ d.exp) : ∃ d', read d.text = .ok d' ∧ d'.toRat = d.toRat := by
  by_cases hexp : d.exp < 0
  · obtain ⟨ip, fp, k, htext, hip, hd, hlen, hval⟩ := text_of_neg hexp
    have hfp : fp.length ≤ 2147483648 := by
      have hmin : minExp = -2147483648 := rfl
      omega
    have hread := read_positional (d.coeff < 0) hip (fun c hc => hd c (List.mem_append_left _ hc))
      (fun c hc => hd c (List.mem_append_right _ hc)) hfp
    rw [← htext] at hread
    refine ⟨_, hread, ?_⟩
    have hexp' : d.exp = -((fp.length + k : Nat) : Int) := by omega
    rw [toRat, toRat, hexp']
    exact toRat_signed hval
  · have hwhole : d.text = String.ofList ((if d.coeff * Int.pow 10 d.exp.toNat < 0 then ['-'] else []) ++
        Nat.toDigits 10 (d.coeff * Int.pow 10 d.exp.toNat).natAbs ++ (if ([] : List Char) = [] then [] else ['.'])) := by
      unfold text
      rw [if_pos (Int.not_lt.1 hexp), ofInt_eq, if_pos rfl, List.append_nil]
    have hread := @read_positional (d.coeff * Int.pow 10 d.exp.toNat < 0) _
      (Nat.toDigits 10 (d.coeff * Int.pow 10 d.exp.toNat).natAbs) [] Nat.toDigits_ne_nil
      (fun c hc => Json.isDigit_of_mem_toDigits hc) (by simp) (by simp)
    rw [← hwhole, List.append_nil, digitsValue_toDigits, signed_natAbs] at hread
    refine ⟨_, hread, ?_⟩
    have hpow : (10 : ℚ) ^ d.exp = ((Int.pow 10 d.exp.toNat : Int) : ℚ) := by
      rw [← Int.toNat_of_nonneg (Int.not_lt.1 hexp), zpow_natCast, Int.toNat_natCast,
        show Int.pow 10 d.exp.toNat = 10 ^ d.exp.toNat from rfl]
      push_cast
      rfl
    rw [toRat, toRat, hpow]
    push_cast
    simp

end TradeDesk.Decimal
