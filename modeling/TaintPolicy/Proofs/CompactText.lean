import Mathlib.Data.List.Basic
import Mathlib.Tactic.SplitIfs
import TaintPolicy.Json.Printer
import TaintPolicy.Json.Reader
import TaintPolicy.Proofs.DecimalText

/-!
# Compact JSON is unambiguous

No two values have one compact text. Reading a quoted text up to its closing quote gives back what
was quoted; a number ends before the first character that no number has; and the first character of
a value shows its kind. So the text of a value can be told from whatever follows it.
-/

namespace TaintPolicy.Json

section texts

theorem hexUnit?_hexDigit {n : Nat} (h : n < 256) :
    hexUnit? '0' '0' (hexDigit (n / 16)) (hexDigit (n % 16)) = some n := by
  have h0 : hexValue? '0' = some 0 := by decide
  rw [hexUnit?, h0, hexValue?_hexDigit _ (by omega), hexValue?_hexDigit _ (by omega)]
  simp
  omega

theorem readUnits_short {e : Char} {n : Nat} (he : e ≠ 'u') (h : shortEscape? e = some n)
    (rest : List Char) :
    readUnits ('\\' :: e :: rest) = (readUnits rest).map fun read => (n :: read.1, read.2) := by
  rw [readUnits]
  · rw [h]
    cases readUnits rest <;> rfl
  · simp [he]

/-- An escaped character is read as that character. -/
theorem readUnits_escaped (c : Char) (rest : List Char) :
    readUnits (escaped c ++ rest) =
      (readUnits rest).map fun read => (c.toNat :: read.1, read.2) := by
  rw [escaped]
  split_ifs with hquote hslash _ _ _ _ _ hlow
  -- All characters that have a short escape are alike.
  any_goals
    subst_vars
    exact readUnits_short (by decide) rfl rest
  · simp only [List.cons_append, List.nil_append]
    rw [readUnits, hexUnit?_hexDigit (by omega)]
    cases readUnits rest <;> rfl
  · simp only [List.cons_append, List.nil_append]
    rw [readUnits, if_neg (by simp [hslash, hlow])]
    · cases readUnits rest <;> rfl
    · simp [hquote]
    · simp [hslash]
    · simp [hslash]

theorem readUnits_quoted (cs rest : List Char) :
    readUnits (cs.flatMap escaped ++ '"' :: rest) = some (cs.map Char.toNat, rest) := by
  induction cs with
  | nil => simp [readUnits]
  | cons c cs ih =>
    rw [List.flatMap_cons, List.append_assoc, readUnits_escaped, ih]
    rfl

/-- No character is half of a surrogate pair. -/
theorem joinUnits_map_toNat (cs : List Char) : joinUnits (cs.map Char.toNat) = some cs := by
  induction cs with
  | nil => rfl
  | cons c cs ih =>
    have hc : c.toNat < 0xD800 ∨ 0xDFFF < c.toNat ∧ c.toNat < 0x110000 := c.valid
    rw [List.map_cons, joinUnits.eq_def]
    dsimp only
    rw [if_neg (by omega), if_neg (by omega), ih, Char.ofNat_toNat]
    rfl

/-- Reading a quoted text stops at its end. -/
theorem readText_quoted (s : String) (rest : List Char) :
    readText (s.toList.flatMap escaped ++ '"' :: rest) = some (s, rest) := by
  simp [readText, readUnits_quoted, joinUnits_map_toNat]

theorem quoted_append_inj {s s' : String} {rest rest' : List Char}
    (h : quoted s ++ rest = quoted s' ++ rest') : s = s' ∧ rest = rest' := by
  simp only [quoted, List.cons_append, List.append_assoc, List.nil_append, List.cons.injEq,
    true_and] at h
  have hread := congrArg readText h
  rw [readText_quoted, readText_quoted] at hread
  simpa using hread

end texts

section numbers

/-- A character that a number can have. -/
def isNumeric (c : Char) : Bool := c.isDigit || c = '-' || c = 'e'

theorem isNumeric_of_mem_numberChars {n : Number} {c : Char} (h : c ∈ numberChars n) :
    isNumeric c := by
  have hint : ∀ i : Int, c ∈ i.repr.toList → isNumeric c := by
    intro i hi
    simpa [isNumeric] using .inl (isDigit_or_of_mem_repr hi)
  cases n with
  | int i => exact hint i h
  | real d =>
    rcases List.mem_append.mp h with h | h
    · exact hint d.mantissa h
    · rcases List.mem_cons.mp h with rfl | h
      · rfl
      · exact hint d.exponent h

/-- An integer has no exponent, and a mantissa ends before its exponent. -/
theorem numberChars_injective : Function.Injective numberChars := by
  have he : ∀ i : Int, 'e' ∉ i.repr.toList := by
    intro i h
    rcases isDigit_or_of_mem_repr h with h | h <;> revert h <;> decide
  have hreal : ∀ d : Decimal, 'e' ∈ numberChars (.real d) :=
    fun d => List.mem_append_right _ List.mem_cons_self
  intro n n' h
  cases n with
  | int i =>
    cases n' with
    | int i' => exact congrArg Number.int (intRepr_inj h)
    | real d => exact absurd (h ▸ hreal d : 'e' ∈ numberChars (.int i)) (he i)
  | real d =>
    cases n' with
    | int i' => exact absurd (h ▸ hreal d : 'e' ∈ numberChars (.int i')) (he i')
    | real d' =>
      obtain ⟨hm, -, hx⟩ := (List.append_cons_inj_of_notMem (he _) (he _)).mp h
      rw [Number.real.injEq, Decimal.mk.injEq]
      exact ⟨intRepr_inj hm, intRepr_inj hx⟩

theorem exists_numberChars_eq_cons (n : Number) :
    ∃ c cs, isNumeric c ∧ numberChars n = c :: cs := by
  have hne : numberChars n ≠ [] := by
    cases n with
    | int i => exact toList_intRepr_ne_nil i
    | real d => simp [numberChars]
  obtain ⟨c, cs, h⟩ := List.exists_cons_of_ne_nil hne
  exact ⟨c, cs, isNumeric_of_mem_numberChars (h ▸ List.mem_cons_self), h⟩

/-- What can follow a value: it does not go on with a character that a number can have. -/
def EndsNumber (rest : List Char) : Prop := rest.takeWhile isNumeric = []

theorem numberChars_append_inj {n n' : Number} {rest rest' : List Char} (hr : EndsNumber rest)
    (hr' : EndsNumber rest') (h : numberChars n ++ rest = numberChars n' ++ rest') :
    n = n' ∧ rest = rest' := by
  have htake : ∀ (n : Number) {rest}, EndsNumber rest →
      (numberChars n ++ rest).takeWhile isNumeric = numberChars n := by
    intro n rest hr
    rw [List.takeWhile_append_of_pos fun c => isNumeric_of_mem_numberChars, hr, List.append_nil]
  have hn := congrArg (List.takeWhile isNumeric) h
  rw [htake n hr, htake n' hr'] at hn
  rw [hn] at h
  exact ⟨numberChars_injective hn, List.append_cancel_left h⟩

end numbers

section values

inductive Kind
  | null | flag (value : Bool) | number | text | list | object

def kind : Json → Kind
  | null => .null
  | bool b => .flag b
  | num _ => .number
  | str _ => .text
  | arr _ => .list
  | obj _ => .object

/-- The kind of the values that start with a character, if any do. -/
def kindOf? (c : Char) : Option Kind :=
  if c = 'n' then some .null
  else if c = 't' then some (.flag true)
  else if c = 'f' then some (.flag false)
  else if c = '"' then some .text
  else if c = '[' then some .list
  else if c = '\x7b' then some .object
  else if isNumeric c then some .number
  else none

theorem kindOf?_of_isNumeric {c : Char} (h : isNumeric c) : kindOf? c = some .number := by
  rw [kindOf?]
  split_ifs <;> first
    | rfl
    | (subst_vars; exact absurd h (by decide))

theorem kindOf?_head (v : Json) (rest : List Char) :
    (compactChars v ++ rest).head?.bind kindOf? = some v.kind := by
  cases v with
  | null => rfl
  | bool b => cases b <;> rfl
  | num n =>
    obtain ⟨c, cs, hc, h⟩ := exists_numberChars_eq_cons n
    simp only [compactChars, h, List.cons_append, List.head?_cons, Option.bind_some,
      kindOf?_of_isNumeric hc, kind]
  | str s => rfl
  | arr vs => cases vs <;> rfl
  | obj fs => cases fs <;> rfl

theorem kind_eq {v v' : Json} {rest rest' : List Char}
    (h : compactChars v ++ rest = compactChars v' ++ rest') : v.kind = v'.kind := by
  have hk := kindOf?_head v rest
  rw [h, kindOf?_head] at hk
  exact (Option.some.inj hk).symm

/-- No value starts with the bracket that closes a list. -/
theorem bracket_cons_ne (v : Json) (cs rest : List Char) : ']' :: cs ≠ compactChars v ++ rest := by
  intro h
  have hk := kindOf?_head v rest
  rw [← h] at hk
  exact absurd hk (by simp [kindOf?, isNumeric])

theorem endsNumber_compactItems (vs : List Json) (rest : List Char) :
    EndsNumber (compactItems vs ++ rest) := by
  cases vs <;> rfl

theorem endsNumber_compactFields (fs : List (String × Json)) (rest : List Char) :
    EndsNumber (compactFields fs ++ rest) := by
  cases fs <;> rfl

/-- A list is written as its items are, but for the bracket in the place of the first comma. -/
theorem compactItems_eq_of_arr {vs vs' : List Json} {rest rest' : List Char}
    (h : compactChars (arr vs) ++ rest = compactChars (arr vs') ++ rest') :
    compactItems vs ++ rest = compactItems vs' ++ rest' := by
  cases vs <;> cases vs' <;>
    simp only [compactChars, compactItems, List.cons_append, List.append_assoc, List.nil_append,
      List.cons.injEq, true_and] at h ⊢
  · exact h
  · exact absurd h (bracket_cons_ne _ _ _)
  · exact absurd h.symm (bracket_cons_ne _ _ _)
  · exact h

theorem compactFields_eq_of_obj {fs fs' : List (String × Json)} {rest rest' : List Char}
    (h : compactChars (obj fs) ++ rest = compactChars (obj fs') ++ rest') :
    compactFields fs ++ rest = compactFields fs' ++ rest' := by
  cases fs <;> cases fs' <;>
    simp only [compactChars, compactFields, List.cons_append, List.append_assoc, List.nil_append,
      List.cons.injEq, true_and] at h ⊢
  · exact h
  · simp [quoted] at h
  · simp [quoted] at h
  · exact h

mutual

/-- The text of a value ends where the next one begins: two values with one text, each in front of
something that can follow a value, are the same and so is what follows. -/
theorem compactChars_append_inj (v v' : Json) {rest rest' : List Char} (hr : EndsNumber rest)
    (hr' : EndsNumber rest') (h : compactChars v ++ rest = compactChars v' ++ rest') :
    v = v' ∧ rest = rest' := by
  -- Values of two kinds differ in the first character, which leaves one case for each kind.
  have hk := kind_eq h
  cases v with
  | null =>
    cases v' <;> try exact Kind.noConfusion hk
    exact ⟨rfl, List.append_cancel_left h⟩
  | bool b =>
    cases v' <;> try exact Kind.noConfusion hk
    obtain rfl := Kind.flag.inj hk
    exact ⟨rfl, List.append_cancel_left h⟩
  | num n =>
    cases v' <;> try exact Kind.noConfusion hk
    rw [compactChars, compactChars] at h
    obtain ⟨rfl, rfl⟩ := numberChars_append_inj hr hr' h
    exact ⟨rfl, rfl⟩
  | str s =>
    cases v' <;> try exact Kind.noConfusion hk
    rw [compactChars, compactChars] at h
    obtain ⟨rfl, rfl⟩ := quoted_append_inj h
    exact ⟨rfl, rfl⟩
  | arr vs =>
    cases v' <;> try exact Kind.noConfusion hk
    obtain ⟨rfl, rfl⟩ := compactItems_append_inj vs _ (compactItems_eq_of_arr h)
    exact ⟨rfl, rfl⟩
  | obj fs =>
    cases v' <;> try exact Kind.noConfusion hk
    obtain ⟨rfl, rfl⟩ := compactFields_append_inj fs _ (compactFields_eq_of_obj h)
    exact ⟨rfl, rfl⟩

theorem compactItems_append_inj (vs vs' : List Json) {rest rest' : List Char}
    (h : compactItems vs ++ rest = compactItems vs' ++ rest') : vs = vs' ∧ rest = rest' := by
  cases vs with
  | nil =>
    cases vs' with
    | nil => exact ⟨rfl, List.append_cancel_left h⟩
    | cons v' vs' => simp [compactItems] at h
  | cons v vs =>
    cases vs' with
    | nil => simp [compactItems] at h
    | cons v' vs' =>
      simp only [compactItems, List.cons_append, List.append_assoc, List.cons.injEq, true_and] at h
      obtain ⟨rfl, hvs⟩ := compactChars_append_inj v v' (endsNumber_compactItems vs rest)
        (endsNumber_compactItems vs' rest') h
      obtain ⟨rfl, rfl⟩ := compactItems_append_inj vs vs' hvs
      exact ⟨rfl, rfl⟩

theorem compactFields_append_inj (fs fs' : List (String × Json)) {rest rest' : List Char}
    (h : compactFields fs ++ rest = compactFields fs' ++ rest') : fs = fs' ∧ rest = rest' := by
  cases fs with
  | nil =>
    cases fs' with
    | nil => exact ⟨rfl, List.append_cancel_left h⟩
    | cons f' fs' => simp [compactFields] at h
  | cons f fs =>
    cases fs' with
    | nil => simp [compactFields] at h
    | cons f' fs' =>
      obtain ⟨k, v⟩ := f
      obtain ⟨k', v'⟩ := f'
      simp only [compactFields, List.cons_append, List.append_assoc, List.cons.injEq, true_and] at h
      obtain ⟨rfl, hv⟩ := quoted_append_inj h
      obtain ⟨rfl, hfs⟩ := compactChars_append_inj v v' (endsNumber_compactFields fs rest)
        (endsNumber_compactFields fs' rest') (List.cons.inj hv).2
      obtain ⟨rfl, rfl⟩ := compactFields_append_inj fs fs' hfs
      exact ⟨rfl, rfl⟩

end

/-- The compact text of a value is that of no other. -/
theorem compact_injective : Function.Injective compact := by
  intro v v' h
  rw [compact, compact, String.ofList_inj] at h
  have hnil : EndsNumber [] := rfl
  have hc : compactChars v ++ [] = compactChars v' ++ [] := by rw [h]
  exact (compactChars_append_inj v v' hnil hnil hc).1

end values

end TaintPolicy.Json
