import Mathlib.Algebra.Group.Int.Defs
import Mathlib.Algebra.Group.Nat.Defs
import TradeDesk.Broker.Report
import TradeDesk.Intent
/-!
# Reading back what is written

The reader takes back the compact text the writer gives, for the values the desk stores: strings,
booleans, integers and objects of those. A stored report is such an object, so it decodes to the
report it was written from (`BrokerFill.decode_encode`), and so does a stored intent
(`Intent.decode_encode`).

Strings come back character by character: every escape the writer makes, the one-letter ones and
the `\u` escapes of control and unsafe characters, is one the reader undoes, and the reader keeps
every other character (`readString_escapeChar`). Numbers are written without leading zeros, so
the reader's grammar takes a numeral whole, up to the comma or brace after it, and binds it to the
word it came from. An object's members are read one by one; `ReadsBack` names the values that
come back from their text whatever comma or brace follows, and an object of such values comes
back whole, since the fuel the reader is given grows with the text.
-/

namespace TradeDesk.Json

/-! ### Strings -/

theorem hexValue?_hexDigit : ∀ n, n < 16 → hexValue? (Text.hexDigit n) = some n := by decide

theorem hexDigits_four (u : Nat) :
    Text.hexDigits 4 u =
      [Text.hexDigit (u / 4096 % 16), Text.hexDigit (u / 256 % 16), Text.hexDigit (u / 16 % 16), Text.hexDigit (u % 16)] := by
  simp [Text.hexDigits, List.range_succ]

theorem hex4?_hexDigits {u : Nat} (h : u < 0x10000) :
    hex4? (Text.hexDigit (u / 4096 % 16)) (Text.hexDigit (u / 256 % 16)) (Text.hexDigit (u / 16 % 16))
      (Text.hexDigit (u % 16)) = some u := by
  simp only [hex4?, hexValue?_hexDigit _ (Nat.mod_lt _ (by decide : 16 > 0))]
  simp only [Option.bind_eq_bind, Option.bind_some, Option.pure_def, Option.some.injEq]
  omega

theorem unitEscape_of_not_surrogate (u : Nat) (h : isSurrogate u = false) (rest : List Char) :
    unitEscape u rest = (Char.ofNat u, rest) := by
  simp [unitEscape, h]

/-- A character that opens neither the closing quote nor an escape is kept, unless it is a
control character. -/
theorem readString_plain {c : Char} {cs acc : List Char} (hq : c ≠ '"') (hb : c ≠ '\\') :
    readString (c :: cs) acc = if c.toNat < 32 then none else readString cs (c :: acc) :=
  readString.eq_13 acc c cs hq (fun _ h _ => hb h) (fun _ h _ => hb h) (fun _ h _ => hb h) (fun _ h _ => hb h)
    (fun _ h _ => hb h) (fun _ h _ => hb h) (fun _ h _ => hb h) (fun _ h _ => hb h) (fun _ _ _ _ _ h _ => hb h) hb

/-- The reader undoes the writer's escape of every character. -/
theorem readString_escapeChar (c : Char) (cs acc : List Char) :
    readString (escapeChar c ++ cs) acc = readString cs (c :: acc) := by
  unfold escapeChar
  split
  · subst_vars; simp [readString]
  split
  · subst_vars; simp [readString]
  split
  · subst_vars; simp [readString]
  split
  · subst_vars; simp [readString]
  split
  · subst_vars; simp [readString]
  split
  · subst_vars; simp [readString]
  split
  · subst_vars; simp [readString]
  split
  · rename_i h
    have hu : c.toNat < 0xD800 := by
      rcases h with h | rfl | rfl | rfl | h | h
      · omega
      · decide
      · decide
      · decide
      · omega
      · omega
    rw [hexDigits_four]
    simp only [List.cons_append, List.nil_append]
    rw [readString.eq_11, hex4?_hexDigits (by omega)]
    dsimp only
    rw [unitEscape_of_not_surrogate c.toNat (by simp [isSurrogate]; omega), Char.ofNat_toNat]
  · rename_i hq hb _ _ _ _ _ hc
    rw [List.singleton_append, readString_plain hq hb, if_neg (fun h => hc (Or.inl h))]

theorem readString_escaped (rest : List Char) :
    ∀ (cs acc : List Char),
      readString (cs.flatMap escapeChar ++ '"' :: rest) acc = some (String.ofList (acc.reverse ++ cs), rest)
  | [], acc => by simp [readString]
  | c :: cs, acc => by
    rw [List.flatMap_cons, List.append_assoc, readString_escapeChar, readString_escaped rest cs (c :: acc)]
    simp

theorem toList_quote (s : String) : (quote s).toList = '"' :: (s.toList.flatMap escapeChar ++ ['"']) :=
  String.toList_ofList

/-! ### Numerals -/

theorem isDigit_of_mem_toDigits {n : Nat} {c : Char} (h : c ∈ Nat.toDigits 10 n) : c.isDigit = true :=
  Nat.isDigit_of_mem_toDigits (by decide) (by decide) h

/-- The numeral of a positive number does not start with a zero. -/
theorem head?_toDigits_ne_zero : ∀ n, 0 < n → (Nat.toDigits 10 n).head? ≠ some '0'
  | n, hn => by
    rw [Nat.toDigits_eq_if (by decide)]
    split
    · rename_i hlt
      have hdigit : ∀ m, m < 10 → 0 < m → m.digitChar ≠ '0' := by decide
      simpa using hdigit n hlt hn
    · have ih := head?_toDigits_ne_zero (n / 10) (by omega)
      obtain ⟨d, ds, hd⟩ := List.exists_cons_of_ne_nil (Nat.toDigits_ne_nil : Nat.toDigits 10 (n / 10) ≠ [])
      rw [hd] at ih ⊢
      simpa using ih

theorem toList_ofNat (n : Nat) : (Text.ofNat n).toList = Nat.toDigits 10 n := String.toList_ofList

theorem spanDigits_append {ds : List Char} (hds : ∀ c ∈ ds, c.isDigit = true) {c : Char} (hc : c.isDigit = false)
    (rest : List Char) : spanDigits (ds ++ c :: rest) = (ds, c :: rest) := by
  induction ds with
  | nil => simp [spanDigits, hc]
  | cons d ds ih =>
    have hd := hds d List.mem_cons_self
    have := ih fun x hx => hds x (List.mem_cons_of_mem _ hx)
    simp only [spanDigits, Prod.mk.injEq] at this
    simp [spanDigits, hd, this]

theorem readSign_of_ne {d : Char} (h : d ≠ '-') (r : List Char) : readSign (d :: r) = ([], d :: r) :=
  readSign.eq_2 _ fun _ he => h (List.cons.inj he).1

theorem readFraction_of_ne {c : Char} (h : c ≠ '.') (r : List Char) : readFraction (c :: r) = some ([], c :: r) :=
  readFraction.eq_2 _ fun _ he => h (List.cons.inj he).1

theorem readExponent_of_ne {c : Char} (he : c ≠ 'e') (hE : c ≠ 'E') (r : List Char) :
    readExponent (c :: r) = some ([], c :: r) := by
  simp [readExponent, he, hE]

/-- The digits of a numeral are the integer part of a number. -/
theorem readIntPart_toDigits (n : Nat) {c : Char} (hc : c.isDigit = false) (rest : List Char) :
    readIntPart (Nat.toDigits 10 n ++ c :: rest) = some (Nat.toDigits 10 n, c :: rest) := by
  rcases Nat.eq_zero_or_pos n with rfl | hn
  · rw [Nat.toDigits_zero]
    rfl
  · have hspan := spanDigits_append (fun x (h : x ∈ Nat.toDigits 10 n) => isDigit_of_mem_toDigits h) hc rest
    have hlead := head?_toDigits_ne_zero n hn
    obtain ⟨d, ds, hdd⟩ := List.exists_cons_of_ne_nil (Nat.toDigits_ne_nil : Nat.toDigits 10 n ≠ [])
    have hd : d.isDigit = true := isDigit_of_mem_toDigits (hdd ▸ List.mem_cons_self)
    rw [hdd] at hspan hlead ⊢
    simp only [List.head?_cons, ne_eq, Option.some.injEq] at hlead
    rw [List.cons_append, readIntPart.eq_2 d _ hlead, if_pos hd, ← List.cons_append, hspan]

/-- A numeral, with or without a minus sign, is read as a number up to a comma or a closing
brace. -/
theorem readNumber_toDigits (sign : List Char) (hsign : sign = [] ∨ sign = ['-']) (n : Nat) {c : Char}
    (hc : c = ',' ∨ c = '}') (rest : List Char) :
    readNumber (sign ++ Nat.toDigits 10 n ++ c :: rest) = some (String.ofList (sign ++ Nat.toDigits 10 n), c :: rest) := by
  have hcd : c.isDigit = false := by rcases hc with rfl | rfl <;> rfl
  have hsplit : readSign (sign ++ (Nat.toDigits 10 n ++ c :: rest)) = (sign, Nat.toDigits 10 n ++ c :: rest) := by
    rcases hsign with rfl | rfl
    · obtain ⟨d, ds, hdd⟩ := List.exists_cons_of_ne_nil (Nat.toDigits_ne_nil : Nat.toDigits 10 n ≠ [])
      have hd : d.isDigit = true := isDigit_of_mem_toDigits (hdd ▸ List.mem_cons_self)
      rw [hdd, List.nil_append, List.cons_append, readSign_of_ne (fun h => by subst h; exact absurd hd (by decide))]
    · rfl
  have hc₁ : c ≠ '.' := by rcases hc with rfl | rfl <;> decide
  have hc₂ : c ≠ 'e' := by rcases hc with rfl | rfl <;> decide
  have hc₃ : c ≠ 'E' := by rcases hc with rfl | rfl <;> decide
  rw [List.append_assoc]
  simp only [readNumber, hsplit, readIntPart_toDigits n hcd, Option.bind_eq_bind, Option.bind_some,
    readFraction_of_ne hc₁, readExponent_of_ne hc₂ hc₃, List.append_nil, Option.pure_def]

theorem readMagnitude_digits (limit : Nat) :
    ∀ (ds : List Char) (acc : Nat), (∀ c ∈ ds, c.isDigit = true) → Nat.ofDigitChars 10 ds acc ≤ limit →
      Text.readMagnitude limit ds acc = .ok (Nat.ofDigitChars 10 ds acc)
  | [], acc, _, _ => rfl
  | c :: rest, acc, hds, hle => by
    have hc := hds c List.mem_cons_self
    rw [Nat.ofDigitChars_cons] at hle ⊢
    -- the magnitude only grows, so the one after this digit is in range too
    have hgrow : Nat.ofDigitChars 10 rest (10 * acc + (c.toNat - 48)) =
        10 ^ rest.length * (10 * acc + (c.toNat - 48)) + Nat.ofDigitChars 10 rest 0 :=
      Nat.ofDigitChars_eq_ofDigitChars_zero
    have hpos : 0 < 10 ^ rest.length := Nat.pow_pos (by decide : 0 < 10)
    have hstep : 10 * acc + (c.toNat - 48) ≤ limit := by
      have : 10 * acc + (c.toNat - 48) ≤ 10 ^ rest.length * (10 * acc + (c.toNat - 48)) := Nat.le_mul_of_pos_left _ hpos
      simp only [Char.reduceToNat] at hle
      omega
    simp only [Text.readMagnitude, hc, if_true, Char.reduceToNat] at ⊢ hle
    rw [if_neg (by omega)]
    exact readMagnitude_digits limit rest _ (fun x hx => hds x (List.mem_cons_of_mem _ hx)) hle

/-- Digits without a sign are read as a natural number, when it is below the signed bound. -/
theorem readInt_digits {ds : List Char} (hds : ∀ c ∈ ds, c.isDigit = true) (hne : ds ≠ []) (bits : Nat)
    (hlt : Nat.ofDigitChars 10 ds 0 < 2 ^ (bits - 1)) (hb : 2 ^ (bits - 1) ≤ 2 ^ bits - 1) :
    Text.readInt ds bits = .ok (Nat.ofDigitChars 10 ds 0) := by
  obtain ⟨d, rest, rfl⟩ := List.exists_cons_of_ne_nil hne
  have hd := hds d List.mem_cons_self
  have hmag := readMagnitude_digits (2 ^ bits - 1) (d :: rest) 0 hds (by omega)
  unfold Text.readInt
  split
  · rename_i neg digits heq
    split at heq
    · rename_i r heq'
      exact absurd ((List.cons.inj heq').1 ▸ hd) (by decide)
    · rename_i r heq'
      exact absurd ((List.cons.inj heq').1 ▸ hd) (by decide)
    · cases heq
      simp only [List.isEmpty_cons, Bool.false_eq_true, if_false, Bool.not_false, true_and, Nat.pow_eq]
      rw [hmag]
      simp only [if_neg (Nat.not_le.2 hlt), false_and, if_false]

/-- Digits after a minus sign are read as a negative number, when it is not below the signed
bound. -/
theorem readInt_neg_digits {ds : List Char} (hds : ∀ c ∈ ds, c.isDigit = true) (hne : ds ≠ []) (bits : Nat)
    (hle : Nat.ofDigitChars 10 ds 0 ≤ 2 ^ (bits - 1)) (hb : 2 ^ (bits - 1) ≤ 2 ^ bits - 1) :
    Text.readInt ('-' :: ds) bits = .ok (-(Nat.ofDigitChars 10 ds 0 : Int)) := by
  have hmag := readMagnitude_digits (2 ^ bits - 1) ds 0 hds (by omega)
  simp only [Text.readInt, List.isEmpty_eq_false_iff.2 hne, Bool.false_eq_true, if_false, Nat.pow_eq, hmag]
  simp only [Bool.not_true, Bool.false_eq_true, false_and, if_false, true_and, if_neg (Nat.not_lt.2 hle), if_true]

/-- The number of a natural number below 2⁶⁴ binds to its unsigned word. -/
theorem asUWord?_nat {n : Nat} (h : n < 2 ^ 64) : asUWord? (Json.nat n) = some (UInt64.ofNat n) := by
  have hread : Text.readInt (Nat.toDigits 10 n) 65 = .ok n := by
    have := readInt_digits (fun x (hx : x ∈ Nat.toDigits 10 n) => isDigit_of_mem_toDigits hx) Nat.toDigits_ne_nil
      65 (by rw [Nat.ofDigitChars_ten_toDigits]; exact h) (by decide)
    rwa [Nat.ofDigitChars_ten_toDigits] at this
  simp only [asUWord?, Json.nat, toList_ofNat]
  split
  · rename_i r heq
    obtain ⟨d, ds, hdd⟩ := List.exists_cons_of_ne_nil (Nat.toDigits_ne_nil : Nat.toDigits 10 n ≠ [])
    have hd : d.isDigit = true := isDigit_of_mem_toDigits (hdd ▸ List.mem_cons_self)
    rw [hdd] at heq
    exact absurd ((List.cons.inj heq).1 ▸ hd) (by decide)
  · have hlt : (n : Int) < Int.pow 2 64 := by
      rw [show Int.pow 2 64 = 2 ^ 64 from rfl]
      omega
    simp only [hread, if_pos hlt, Int.toNat_natCast]

/-- The number of an integer in the range of a signed word binds to its word. -/
theorem asWord?_int {i : Int} (hlo : -2 ^ 63 ≤ i) (hhi : i < 2 ^ 63) : asWord? (Json.int i) = some (Int64.ofInt i) := by
  have hdigits := fun (m : Nat) x (hx : x ∈ Nat.toDigits 10 m) => isDigit_of_mem_toDigits hx
  cases i with
  | ofNat m =>
    rw [Int.ofNat_eq_natCast] at hhi
    have hread := readInt_digits (hdigits m) Nat.toDigits_ne_nil 64 (by rw [Nat.ofDigitChars_ten_toDigits]; omega)
      (by decide)
    rw [Nat.ofDigitChars_ten_toDigits] at hread
    simp only [asWord?, Json.int, Text.ofInt, toList_ofNat, hread]
    rfl
  | negSucc m =>
    rw [Int.negSucc_eq] at hlo
    have hread := readInt_neg_digits (hdigits (m + 1)) Nat.toDigits_ne_nil 64
      (by rw [Nat.ofDigitChars_ten_toDigits]; omega) (by decide)
    rw [Nat.ofDigitChars_ten_toDigits] at hread
    simp only [asWord?, Json.int, Text.ofInt, String.toList_append, toList_ofNat]
    rw [show "-".toList = ['-'] from rfl, List.singleton_append, hread]
    rfl

theorem asWord?_word (x : Int64) : asWord? (.num (Text.ofWord x)) = some x := by
  rw [show Json.num (Text.ofWord x) = Json.int x.toInt from rfl, asWord?_int (Int64.le_toInt x) (Int64.toInt_lt x),
    Int64.ofInt_toInt]

theorem asUWord?_word (x : UInt64) : asUWord? (.num (Text.ofNat x.toNat)) = some x := by
  rw [← Json.nat, asUWord?_nat (UInt64.toNat_lt x), UInt64.ofNat_toNat]

/-! ### Values and objects -/

theorem skipBlank_cons {c : Char} (h : isBlank c = false) (r : List Char) : skipBlank (c :: r) = c :: r := by
  simp [skipBlank, h]

/-- A value the reader gives back when a comma or a closing brace follows its text. -/
def ReadsBack (v : Json) : Prop :=
  ∀ (fuel depth : Nat) (c : Char) (rest : List Char), c = ',' ∨ c = '}' →
    readValue (fuel + 1) depth ((render v).toList ++ c :: rest) = some (v, c :: rest)

theorem readsBack_str (s : String) : ReadsBack (.str s) := by
  intro fuel depth c rest _
  simp only [render, toList_quote, List.cons_append, List.append_assoc]
  rw [readValue.eq_2, skipBlank_cons (by decide)]
  simp [readString_escaped]

theorem readsBack_bool (b : Bool) : ReadsBack (.bool b) := by
  intro fuel depth c rest _
  cases b
  · rw [readValue.eq_2, render, show "false".toList = ['f', 'a', 'l', 's', 'e'] from rfl]
    rw [List.cons_append, skipBlank_cons (by decide)]
    rfl
  · rw [readValue.eq_2, render, show "true".toList = ['t', 'r', 'u', 'e'] from rfl]
    rw [List.cons_append, skipBlank_cons (by decide)]
    rfl

/-- A text that starts with a minus sign or a digit is read as a number. -/
theorem readValue_number {d : Char} (hd : d = '-' ∨ d.isDigit = true) (fuel depth : Nat) (t : List Char) :
    readValue (fuel + 1) depth (d :: t) = (readNumber (d :: t)).map fun x => (.num x.1, x.2) := by
  have hblank : isBlank d = false := by
    cases hb : isBlank d with
    | false => rfl
    | true =>
      simp only [isBlank, Bool.decide_or, Bool.or_eq_true, decide_eq_true_eq] at hb
      rcases hb with rfl | rfl | rfl | rfl <;> exact absurd hd (by decide)
  rw [readValue.eq_2, skipBlank_cons hblank]
  -- no other kind of value starts with a sign or a digit
  split
  · rename_i r heq; obtain ⟨rfl, -⟩ := List.cons.inj heq; exact absurd hd (by decide)
  · rename_i r heq; obtain ⟨rfl, -⟩ := List.cons.inj heq; exact absurd hd (by decide)
  · rename_i r heq; obtain ⟨rfl, -⟩ := List.cons.inj heq; exact absurd hd (by decide)
  · rename_i r heq; obtain ⟨rfl, -⟩ := List.cons.inj heq; exact absurd hd (by decide)
  · rename_i r heq; obtain ⟨rfl, -⟩ := List.cons.inj heq; exact absurd hd (by decide)
  · rename_i r heq; obtain ⟨rfl, -⟩ := List.cons.inj heq; exact absurd hd (by decide)
  · rfl

theorem readsBack_numeral (sign : List Char) (hsign : sign = [] ∨ sign = ['-']) (n : Nat) :
    ReadsBack (.num (String.ofList (sign ++ Nat.toDigits 10 n))) := by
  intro fuel depth c rest hc
  obtain ⟨d, t, hdt, hd⟩ : ∃ d t, sign ++ Nat.toDigits 10 n = d :: t ∧ (d = '-' ∨ d.isDigit = true) := by
    rcases hsign with rfl | rfl
    · obtain ⟨d, ds, hdd⟩ := List.exists_cons_of_ne_nil (Nat.toDigits_ne_nil : Nat.toDigits 10 n ≠ [])
      exact ⟨d, ds, hdd, Or.inr (isDigit_of_mem_toDigits (hdd ▸ List.mem_cons_self))⟩
    · exact ⟨'-', _, rfl, Or.inl rfl⟩
  have hnum := readNumber_toDigits sign hsign n hc rest
  simp only [render, String.toList_ofList]
  rw [hdt] at hnum ⊢
  rw [List.cons_append, readValue_number hd, ← List.cons_append, hnum]
  rfl

theorem readsBack_nat (n : Nat) : ReadsBack (Json.nat n) := readsBack_numeral [] (Or.inl rfl) n

theorem readsBack_int (i : Int) : ReadsBack (Json.int i) := by
  cases i with
  | ofNat m => exact readsBack_numeral [] (Or.inl rfl) m
  | negSucc m =>
    have htext : Text.ofInt (Int.negSucc m) = String.ofList (['-'] ++ Nat.toDigits 10 (m + 1)) := by
      rw [← String.toList_inj]
      simp [Text.ofInt, toList_ofNat]
    rw [Json.int, htext]
    exact readsBack_numeral ['-'] (Or.inr rfl) (m + 1)

theorem readsBack_word (x : Int64) : ReadsBack (Json.word x) := readsBack_int x.toInt

theorem toList_renderMembers_single (k : String) (v : Json) :
    (renderMembers [(k, v)]).toList = (quote k).toList ++ ':' :: (render v).toList := by
  simp [renderMembers]

theorem toList_renderMembers_cons (k : String) (v : Json) (m : String × Json) (ms : List (String × Json)) :
    (renderMembers ((k, v) :: m :: ms)).toList =
      (quote k).toList ++ ':' :: (render v).toList ++ ',' :: (renderMembers (m :: ms)).toList := by
  simp [renderMembers]

/-- Members are written starting with a quote, in at least a character each. -/
theorem toList_renderMembers_head : ∀ ms : List (String × Json), ms ≠ [] →
    ∃ t, (renderMembers ms).toList = '"' :: t ∧ ms.length ≤ t.length + 1
  | [], hne => absurd rfl hne
  | [(k, v)], _ => by
    rw [toList_renderMembers_single, toList_quote]
    exact ⟨_, rfl, by simp⟩
  | (k, v) :: m :: ms, _ => by
    obtain ⟨t, ht, hlen⟩ := toList_renderMembers_head (m :: ms) (List.cons_ne_nil _ _)
    rw [toList_renderMembers_cons, toList_quote]
    refine ⟨_, rfl, ?_⟩
    simp [ht] at hlen ⊢
    omega

/-- Members whose values read back are read back, up to the closing brace, with a unit of fuel
for each. -/
theorem readMembers_render (depth : Nat) (rest : List Char) :
    ∀ (ms : List (String × Json)) (fuel : Nat) (acc : List (String × Json)), ms ≠ [] → (∀ m ∈ ms, ReadsBack m.2) →
      ms.length < fuel →
        readMembers fuel depth ((renderMembers ms).toList ++ '}' :: rest) acc = some (.obj (acc.reverse ++ ms), rest)
  | [], _, _, hne, _, _ => absurd rfl hne
  | [(k, v)], fuel + 1, acc, _, hms, hfuel => by
    obtain ⟨f, rfl⟩ : ∃ f, fuel = f + 1 := ⟨fuel - 1, by simp at hfuel; omega⟩
    have hv := hms (k, v) List.mem_cons_self f depth '}' rest (Or.inr rfl)
    rw [toList_renderMembers_single, toList_quote, readMembers.eq_2]
    simp only [List.cons_append, List.append_assoc]
    rw [skipBlank_cons (by decide)]
    simp only [readString_escaped, String.ofList_toList, List.reverse_nil, List.nil_append]
    rw [skipBlank_cons (by decide)]
    simp only [hv]
    rw [skipBlank_cons (by decide)]
    simp
  | (k, v) :: m :: ms, fuel + 1, acc, _, hms, hfuel => by
    obtain ⟨f, rfl⟩ : ∃ f, fuel = f + 1 := ⟨fuel - 1, by simp at hfuel; omega⟩
    have hv := hms (k, v) List.mem_cons_self f depth ',' ((renderMembers (m :: ms)).toList ++ '}' :: rest) (Or.inl rfl)
    have ih := readMembers_render depth rest (m :: ms) (f + 1) ((k, v) :: acc) (List.cons_ne_nil _ _)
      (fun x hx => hms x (List.mem_cons_of_mem _ hx)) (by simp at hfuel ⊢; omega)
    rw [toList_renderMembers_cons, toList_quote, readMembers.eq_2]
    simp only [List.cons_append, List.append_assoc]
    rw [skipBlank_cons (by decide)]
    simp only [readString_escaped, String.ofList_toList, List.reverse_nil, List.nil_append]
    rw [skipBlank_cons (by decide)]
    simp only [hv]
    rw [skipBlank_cons (by decide)]
    simp [ih]

/-- An object that opens with a member is read member by member. -/
theorem readValue_obj (fuel depth : Nat) (r : List Char) :
    readValue (fuel + 1) depth ('{' :: '"' :: r) =
      if maxDepth ≤ depth then none else readMembers fuel (depth + 1) ('"' :: r) [] := rfl

/-- An object whose members all read back is read back whole. -/
theorem parse?_render_obj (ms : List (String × Json)) (hne : ms ≠ []) (hms : ∀ m ∈ ms, ReadsBack m.2) :
    parse? (render (.obj ms)) = some (.obj ms) := by
  obtain ⟨t, ht, hlen⟩ := toList_renderMembers_head ms hne
  have htext : (render (.obj ms)).toList = '{' :: '"' :: (t ++ ['}']) := by
    simp [render, ht]
  -- the fuel grows with the text, which has a character for each member
  have hmembers := readMembers_render 1 [] ms (2 * (render (.obj ms)).toList.length + 1) [] hne hms
    (by rw [htext]; simp; omega)
  rw [ht, List.cons_append] at hmembers
  unfold parse?
  simp only [fuelFor]
  rw [htext, readValue_obj, if_neg (by decide), ← htext, hmembers]
  simp [skipBlank]

end TradeDesk.Json

namespace TradeDesk

namespace BrokerFill

/-- A report's JSON binds back to the report. -/
theorem ofJson?_toJson (f : BrokerFill) : ofJson? f.toJson = some f := by
  simp [ofJson?, toJson, Json.bind, Json.bindMembers, Json.selectField, fields, Json.asString?, Json.asBool?,
    Json.nat, Json.word, Json.asWord?_word, Json.asUWord?_word]

theorem readsBack_toJson (f : BrokerFill) : ∀ m ∈ f.toJson.members, Json.ReadsBack m.2 := by
  simp only [toJson, Json.members, List.mem_cons, List.not_mem_nil, or_false]
  rintro m (rfl | rfl | rfl | rfl | rfl | rfl | rfl | rfl | rfl)
  · exact Json.readsBack_str _
  · exact Json.readsBack_nat _
  · exact Json.readsBack_str _
  · exact Json.readsBack_str _
  · exact Json.readsBack_str _
  · exact Json.readsBack_word _
  · exact Json.readsBack_word _
  · exact Json.readsBack_word _
  · exact Json.readsBack_bool _

/-- **A stored report reads back as itself.** -/
theorem decode_encode (f : BrokerFill) : decode f.encode = some f := by
  have hparse : Json.parse? f.encode = some f.toJson :=
    Json.parse?_render_obj _ (List.cons_ne_nil _ _) (readsBack_toJson f)
  rw [decode, hparse, Option.bind_some, ofJson?_toJson f]

end BrokerFill

namespace Intent

/-- An intent's JSON binds back to the intent. -/
theorem bind_toJson (i : Intent) : Json.bind fields {} i.toJson = some i := by
  obtain ⟨key, symbol, side, quantity, orderType, limit, tif⟩ := i
  cases limit <;>
    simp [toJson, Json.bind, Json.bindMembers, Json.selectField, fields, Json.asString?, Json.word,
      Json.asWord?_word]

theorem readsBack_toJson (i : Intent) : ∀ m ∈ i.toJson.members, Json.ReadsBack m.2 := by
  intro m hm
  simp only [toJson, Json.members, List.mem_append, List.mem_cons, List.not_mem_nil, or_false] at hm
  rcases hm with ((rfl | rfl | rfl | rfl | rfl) | hl) | rfl
  · exact Json.readsBack_str _
  · exact Json.readsBack_str _
  · exact Json.readsBack_str _
  · exact Json.readsBack_word _
  · exact Json.readsBack_str _
  · cases hlim : i.limit with
    | none => simp [hlim] at hl
    | some l =>
      simp only [hlim, List.mem_singleton] at hl
      subst hl
      exact Json.readsBack_word _
  · exact Json.readsBack_str _

/-- **A stored intent reads back as itself.** -/
theorem decode_encode (i : Intent) : decode i.encode = some i := by
  have hne : i.toJson.members ≠ [] := by
    cases hl : i.limit <;> simp [toJson, hl, Json.members]
  have hparse : Json.parse? i.encode = some i.toJson := by
    have hobj : i.toJson = .obj i.toJson.members := by
      cases hl : i.limit <;> simp [toJson, hl, Json.members]
    rw [encode, hobj]
    exact Json.parse?_render_obj _ hne (readsBack_toJson i)
  rw [decode, hparse, Option.bind_some, bind_toJson i]

end Intent

end TradeDesk
