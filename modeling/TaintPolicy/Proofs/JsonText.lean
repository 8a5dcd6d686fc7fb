import TaintPolicy.Proofs.CompactText
import TaintPolicy.Proofs.WrittenValues

/-!
# Reading JSON text

A value is read back from its text, in either layout: every text, flag and count in it, every list
in its order, and every object as long as it does not repeat a name. The two layouts differ in the
blanks that they put before items, fields and the values of fields, and a reader skips blanks there.
-/

namespace TaintPolicy.Json

/-- Made of texts, flags, counts and nothings, by lists and by objects with distinct names. -/
inductive IsTidy : Json → Prop
  | null : IsTidy null
  | flag (b : Bool) : IsTidy (bool b)
  | str (s : String) : IsTidy (str s)
  | count (n : UInt64) : IsTidy (ofWord n)
  | arr {vs : List Json} : (∀ v ∈ vs, IsTidy v) → IsTidy (arr vs)
  | obj {fs : Fields Json} : (Fields.names fs).Nodup → (∀ f ∈ fs, IsTidy f.2) → IsTidy (obj fs)

section spacing

/-- The blanks of a layout: before an item, a field or a closing bracket, by its depth, and before
the value of a field. -/
structure Spacing where
  line : Nat → List Char
  value : List Char
  isSpace_line : ∀ depth, ∀ c ∈ line depth, isSpace c
  isSpace_value : ∀ c ∈ value, isSpace c

variable (g : Spacing)

mutual

def spaced (depth : Nat) : Json → List Char
  | null => ['n', 'u', 'l', 'l']
  | bool true => ['t', 'r', 'u', 'e']
  | bool false => ['f', 'a', 'l', 's', 'e']
  | num n => numberChars n
  | str s => quoted s
  | arr [] => ['[', ']']
  | arr (v :: vs) =>
    '[' :: (g.line (depth + 1) ++ (spaced (depth + 1) v ++ spacedItems depth vs))
  | obj [] => ['\x7b', '\x7d']
  | obj ((k, v) :: fs) =>
    '\x7b' :: (g.line (depth + 1) ++ (quoted k ++ ':' :: (g.value ++ (spaced (depth + 1) v ++
      spacedFields depth fs))))

/-- The items after the first one, each behind its comma. -/
def spacedItems (depth : Nat) : List Json → List Char
  | [] => g.line depth ++ [']']
  | v :: vs => ',' :: (g.line (depth + 1) ++ (spaced (depth + 1) v ++ spacedItems depth vs))

def spacedFields (depth : Nat) : List (String × Json) → List Char
  | [] => g.line depth ++ ['\x7d']
  | (k, v) :: fs =>
    ',' :: (g.line (depth + 1) ++ (quoted k ++ ':' :: (g.value ++ (spaced (depth + 1) v ++
      spacedFields depth fs))))

end

end spacing

def noSpacing : Spacing where
  line _ := []
  value := []
  isSpace_line := by simp
  isSpace_value := by simp

def lineSpacing : Spacing where
  line := newline
  value := [' ']
  isSpace_line := by
    intro depth c hc
    rcases List.mem_cons.mp hc with rfl | hc
    · rfl
    · rw [List.eq_of_mem_replicate hc]
      rfl
  isSpace_value := by
    intro c hc
    rw [List.mem_singleton.mp hc]
    rfl

section layouts

mutual

theorem spaced_noSpacing (depth : Nat) (v : Json) : spaced noSpacing depth v = compactChars v := by
  cases v with
  | null => rfl
  | bool b => cases b <;> rfl
  | num n => rfl
  | str s => rfl
  | arr vs =>
    cases vs with
    | nil => rfl
    | cons v vs =>
      rw [spaced, compactChars, spaced_noSpacing (depth + 1) v, spacedItems_noSpacing depth vs]
      rfl
  | obj fs =>
    cases fs with
    | nil => rfl
    | cons f fs =>
      obtain ⟨k, v⟩ := f
      rw [spaced, compactChars, spaced_noSpacing (depth + 1) v, spacedFields_noSpacing depth fs]
      rfl

theorem spacedItems_noSpacing (depth : Nat) (vs : List Json) :
    spacedItems noSpacing depth vs = compactItems vs := by
  cases vs with
  | nil => rfl
  | cons v vs =>
    rw [spacedItems, compactItems, spaced_noSpacing (depth + 1) v, spacedItems_noSpacing depth vs]
    rfl

theorem spacedFields_noSpacing (depth : Nat) (fs : List (String × Json)) :
    spacedFields noSpacing depth fs = compactFields fs := by
  cases fs with
  | nil => rfl
  | cons f fs =>
    obtain ⟨k, v⟩ := f
    rw [spacedFields, compactFields, spaced_noSpacing (depth + 1) v, spacedFields_noSpacing depth fs]
    rfl

end

mutual

theorem spaced_lineSpacing (depth : Nat) (v : Json) :
    spaced lineSpacing depth v = prettyChars depth v := by
  cases v with
  | null => rfl
  | bool b => cases b <;> rfl
  | num n => rfl
  | str s => rfl
  | arr vs =>
    cases vs with
    | nil => rfl
    | cons v vs =>
      rw [spaced, prettyChars, spaced_lineSpacing (depth + 1) v, spacedItems_lineSpacing depth vs,
        ← List.append_assoc]
      rfl
  | obj fs =>
    cases fs with
    | nil => rfl
    | cons f fs =>
      obtain ⟨k, v⟩ := f
      rw [spaced, prettyChars, spaced_lineSpacing (depth + 1) v, spacedFields_lineSpacing depth fs]
      simp [lineSpacing]

theorem spacedItems_lineSpacing (depth : Nat) (vs : List Json) :
    spacedItems lineSpacing depth vs = prettyItems depth vs := by
  cases vs with
  | nil => rfl
  | cons v vs =>
    rw [spacedItems, prettyItems, spaced_lineSpacing (depth + 1) v, spacedItems_lineSpacing depth vs,
      ← List.append_assoc]
    rfl

theorem spacedFields_lineSpacing (depth : Nat) (fs : List (String × Json)) :
    spacedFields lineSpacing depth fs = prettyFields depth fs := by
  cases fs with
  | nil => rfl
  | cons f fs =>
    obtain ⟨k, v⟩ := f
    rw [spacedFields, prettyFields, spaced_lineSpacing (depth + 1) v,
      spacedFields_lineSpacing depth fs]
    simp [lineSpacing]

end

end layouts

section reading

theorem skipSpace_append {gap : List Char} (h : ∀ c ∈ gap, isSpace c) (cs : List Char) :
    skipSpace (gap ++ cs) = skipSpace cs :=
  List.dropWhile_append_of_pos h

theorem skipSpace_cons {c : Char} (h : isSpace c = false) (cs : List Char) :
    skipSpace (c :: cs) = c :: cs :=
  List.dropWhile_cons_of_neg (by simp [h])

/-- What can follow a value: a comma, a closing bracket, a blank or nothing. -/
def EndsValue (rest : List Char) : Prop :=
  ∀ c ∈ rest.head?, c = ',' ∨ c = ']' ∨ c = '\x7d' ∨ isSpace c

theorem isSpace_iff {c : Char} : isSpace c = true ↔ c = ' ' ∨ c = '\n' ∨ c = '\r' ∨ c = '\t' := by
  simp [isSpace, or_assoc]

theorem EndsValue.ne {c : Char} {rest : List Char} (h : EndsValue (c :: rest)) :
    c.isDigit = false ∧ c ≠ '.' ∧ c ≠ 'e' ∧ c ≠ 'E' := by
  have hc := h c rfl
  rw [isSpace_iff] at hc
  rcases hc with rfl | rfl | rfl | rfl | rfl | rfl | rfl <;> decide

theorem EndsValue.dropWhile_isDigit {rest : List Char} (h : EndsValue rest) :
    rest.takeWhile Char.isDigit = [] ∧ rest.dropWhile Char.isDigit = rest := by
  cases rest with
  | nil => exact ⟨rfl, rfl⟩
  | cons c rest => simp [h.ne.1]

theorem EndsValue.readFraction {rest : List Char} (h : EndsValue rest) :
    Json.readFraction rest = some ([], rest) := by
  cases rest with
  | nil => rfl
  | cons c rest =>
    rw [Json.readFraction]
    rintro ds he
    exact h.ne.2.1 (List.cons.inj he).1

theorem EndsValue.readExponent {rest : List Char} (h : EndsValue rest) :
    Json.readExponent rest = some (none, rest) := by
  cases rest with
  | nil => rfl
  | cons c rest => simp [Json.readExponent, h.ne]

/-- The digits of a count end where the next character is none of them. -/
theorem readNumber_toDigits {n : Nat} (hn : n < UInt64.size) {rest : List Char}
    (hr : EndsValue rest) : readNumber (Nat.toDigits 10 n ++ rest) = some (.int n, rest) := by
  have hzero : ¬ ((Nat.toDigits 10 n).head? = some '0' ∧ (Nat.toDigits 10 n).length > 1) := by
    rintro ⟨hhead, hlength⟩
    rcases Nat.eq_zero_or_pos n with rfl | hpos
    · exact absurd hlength (by decide)
    · exact head?_toDigits_ne hpos hhead
  have hvalue : digitsValue (Nat.toDigits 10 n) = n := Nat.ofDigitChars_ten_toDigits
  obtain ⟨c, ds, he, hd⟩ := exists_toDigits_eq_cons n
  rw [he] at hzero hvalue ⊢
  have hminus : c ≠ '-' := Yaml.isDigit_ne (hd c List.mem_cons_self) (by decide)
  have htake : (c :: (ds ++ rest)).takeWhile Char.isDigit = c :: ds := by
    rw [← List.cons_append, List.takeWhile_append_of_pos hd, hr.dropWhile_isDigit.1,
      List.append_nil]
  have hdrop : (c :: (ds ++ rest)).dropWhile Char.isDigit = rest := by
    rw [← List.cons_append, List.dropWhile_append_of_pos hd, hr.dropWhile_isDigit.2]
  have hliteral : Number.ofLiteral n = .int n := if_pos (fitsWord_natCast hn)
  rw [List.cons_append, readNumber]
  · simp only [htake, hdrop, hr.readFraction, hr.readExponent, Option.bind_eq_bind,
      Option.bind_some, List.append_nil]
    rw [if_neg (by simpa only [List.isEmpty_cons, Bool.false_eq_true, false_or] using hzero)]
    simp [hvalue, hliteral]
  · rintro cs heq
    exact hminus (List.cons.inj heq).1

variable (g : Spacing)

/-- No value starts with a blank or a closing bracket. -/
theorem exists_spaced_eq_cons (depth : Nat) (v : Json) :
    ∃ c cs, spaced g depth v = c :: cs ∧ (kindOf? c).isSome := by
  cases v with
  | null => exact ⟨'n', _, rfl, rfl⟩
  | bool b =>
    cases b with
    | false => exact ⟨'f', _, rfl, rfl⟩
    | true => exact ⟨'t', _, rfl, rfl⟩
  | num n =>
    obtain ⟨c, cs, hc, h⟩ := exists_numberChars_eq_cons n
    exact ⟨c, cs, h, by rw [kindOf?_of_isNumeric hc]; rfl⟩
  | str s => exact ⟨'"', _, rfl, rfl⟩
  | arr vs => cases vs <;> exact ⟨'[', _, rfl, rfl⟩
  | obj fs => cases fs <;> exact ⟨'\x7b', _, rfl, rfl⟩

theorem ne_of_isSome_kindOf? {c d : Char} (h : (kindOf? c).isSome) (hd : kindOf? d = none) :
    c ≠ d := by
  rintro rfl
  simp [hd] at h

theorem isSpace_of_isSome_kindOf? {c : Char} (h : (kindOf? c).isSome) : isSpace c = false := by
  rw [Bool.eq_false_iff, Ne, isSpace_iff, not_or, not_or, not_or]
  exact ⟨ne_of_isSome_kindOf? h rfl, ne_of_isSome_kindOf? h rfl, ne_of_isSome_kindOf? h rfl,
    ne_of_isSome_kindOf? h rfl⟩

/-- A reader skips the blanks in front of a value and nothing of the value. -/
theorem skipSpace_spaced {gap : List Char} (hg : ∀ c ∈ gap, isSpace c) (depth : Nat) (v : Json)
    (rest : List Char) :
    skipSpace (gap ++ (spaced g depth v ++ rest)) = spaced g depth v ++ rest := by
  obtain ⟨c, cs, h, hc⟩ := exists_spaced_eq_cons g depth v
  rw [skipSpace_append hg, h, List.cons_append, skipSpace_cons (isSpace_of_isSome_kindOf? hc)]

theorem endsValue_gap {gap : List Char} (hg : ∀ c ∈ gap, isSpace c) {rest : List Char}
    (hr : EndsValue rest) : EndsValue (gap ++ rest) := by
  cases gap with
  | nil => exact hr
  | cons c gap =>
    intro d hd
    obtain rfl : c = d := Option.some.inj hd
    exact .inr (.inr (.inr (hg c List.mem_cons_self)))

theorem endsValue_spacedItems (depth : Nat) (vs : List Json) (rest : List Char) :
    EndsValue (spacedItems g depth vs ++ rest) := by
  cases vs with
  | nil =>
    rw [spacedItems, List.append_assoc]
    exact endsValue_gap (g.isSpace_line depth) (by simp [EndsValue])
  | cons v vs => simp [spacedItems, EndsValue]

theorem endsValue_spacedFields (depth : Nat) (fs : List (String × Json)) (rest : List Char) :
    EndsValue (spacedFields g depth fs ++ rest) := by
  cases fs with
  | nil =>
    rw [spacedFields, List.append_assoc]
    exact endsValue_gap (g.isSpace_line depth) (by simp [EndsValue])
  | cons f fs => simp [spacedFields, EndsValue]

variable {g}

/-- With fuel for every character of its text, the value is read from the text and nothing else. -/
def IsRead (g : Spacing) (v : Json) : Prop :=
  ∀ depth fuel rest, EndsValue rest → (spaced g depth v).length ≤ fuel →
    readValue fuel (spaced g depth v ++ rest) = some (v, rest)

theorem quoted_append (s : String) (rest : List Char) :
    quoted s ++ rest = '"' :: (s.toList.flatMap escaped ++ '"' :: rest) := by
  simp [quoted]

theorem isRead_null : IsRead g null := by
  intro depth fuel rest _ hf
  cases fuel with
  | zero => simp [spaced] at hf
  | succ fuel => simp [spaced, readValue]

theorem isRead_bool (b : Bool) : IsRead g (bool b) := by
  intro depth fuel rest _ hf
  cases fuel with
  | zero => cases b <;> simp [spaced] at hf
  | succ fuel => cases b <;> simp [spaced, readValue]

theorem isRead_str (s : String) : IsRead g (str s) := by
  intro depth fuel rest _ hf
  cases fuel with
  | zero => simp [spaced, quoted] at hf
  | succ fuel =>
    rw [spaced, quoted_append, readValue, readText_quoted]
    rfl

theorem isRead_ofWord (n : UInt64) : IsRead g (ofWord n) := by
  intro depth fuel rest hr hf
  obtain ⟨c, ds, he, hd⟩ := exists_toDigits_eq_cons n.toNat
  have hne : ∀ d, d.isDigit = false → c ≠ d := fun d => Yaml.isDigit_ne (hd c List.mem_cons_self)
  have ht : spaced g depth (ofWord n) = Nat.toDigits 10 n.toNat := numberChars_natCast n.toNat
  rw [ht] at hf ⊢
  cases fuel with
  | zero => simp [he] at hf
  | succ fuel =>
    have hread := readNumber_toDigits n.toNat_lt_size hr
    rw [he] at hread ⊢
    rw [List.cons_append] at hread ⊢
    rw [readValue, hread]
    · rfl
    · exact fun cs heq => hne 'n' (by decide) (List.cons.inj heq).1
    · exact fun cs heq => hne 't' (by decide) (List.cons.inj heq).1
    · exact fun cs heq => hne 'f' (by decide) (List.cons.inj heq).1
    · exact fun cs heq => hne '"' (by decide) (List.cons.inj heq).1
    · exact fun cs heq => hne '[' (by decide) (List.cons.inj heq).1
    · exact fun cs heq => hne '\x7b' (by decide) (List.cons.inj heq).1

theorem length_spaced_pos (depth : Nat) (v : Json) : 0 < (spaced g depth v).length := by
  obtain ⟨c, cs, h, -⟩ := exists_spaced_eq_cons g depth v
  simp [h]

/-- The items of a list are read up to its bracket. -/
theorem readItems_spaced {v : Json} {vs : List Json} (h : ∀ u ∈ v :: vs, IsRead g u)
    (depth fuel : Nat) (rest : List Char)
    (hf : (spaced g (depth + 1) v ++ spacedItems g depth vs).length ≤ fuel) :
    readItems fuel (spaced g (depth + 1) v ++ (spacedItems g depth vs ++ rest)) =
      some (v :: vs, rest) := by
  induction vs generalizing v fuel with
  | nil =>
    have hv := h v List.mem_cons_self
    rw [List.length_append, spacedItems, List.length_append, List.length_singleton] at hf
    cases fuel with
    | zero => omega
    | succ fuel =>
      have hbracket : skipSpace (spacedItems g depth [] ++ rest) = ']' :: rest := by
        rw [spacedItems, List.append_assoc, skipSpace_append (g.isSpace_line depth)]
        exact skipSpace_cons rfl _
      rw [readItems, hv (depth + 1) fuel _ (endsValue_spacedItems g depth [] rest) (by omega)]
      simp only [Option.bind_eq_bind, Option.bind_some, hbracket]
  | cons u vs ih =>
    have hv := h v List.mem_cons_self
    have hpos := length_spaced_pos (g := g) (depth + 1) v
    rw [List.length_append, spacedItems, List.length_cons, List.length_append] at hf
    cases fuel with
    | zero => omega
    | succ fuel =>
      have hcomma : skipSpace (spacedItems g depth (u :: vs) ++ rest) =
          ',' :: (g.line (depth + 1) ++ (spaced g (depth + 1) u ++
            (spacedItems g depth vs ++ rest))) := by
        rw [spacedItems, List.cons_append, skipSpace_cons rfl]
        simp
      rw [readItems, hv (depth + 1) fuel _ (endsValue_spacedItems g depth (u :: vs) rest) (by omega)]
      simp only [Option.bind_eq_bind, Option.bind_some, hcomma,
        skipSpace_spaced g (g.isSpace_line (depth + 1))]
      rw [ih (fun w hw => h w (List.mem_cons_of_mem _ hw)) fuel (by omega)]
      rfl

theorem isRead_arr {vs : List Json} (h : ∀ v ∈ vs, IsRead g v) : IsRead g (arr vs) := by
  intro depth fuel rest _ hf
  cases fuel with
  | zero => exact absurd hf (by have := length_spaced_pos (g := g) depth (arr vs); omega)
  | succ fuel =>
    cases vs with
    | nil =>
      rw [spaced, List.cons_append, List.singleton_append, readValue]
      rfl
    | cons v vs =>
      obtain ⟨c, cs, hv, hc⟩ := exists_spaced_eq_cons g (depth + 1) v
      have hf' : (spaced g (depth + 1) v ++ spacedItems g depth vs).length ≤ fuel := by
        rw [spaced, List.length_cons, List.length_append] at hf
        omega
      have hread := readItems_spaced h depth fuel rest hf'
      rw [spaced, List.cons_append, List.append_assoc, List.append_assoc, readValue,
        skipSpace_spaced g (g.isSpace_line (depth + 1))]
      rw [hv, List.cons_append] at hread ⊢
      split
      · next cs' he => exact absurd (List.cons.inj he).1 (ne_of_isSome_kindOf? hc rfl)
      · rw [hread]
        rfl

/-- One field is read, and what follows it says whether there is another. -/
theorem readFields_field {k : String} {v : Json} (hv : IsRead g v) (before : Fields Json)
    {depth fuel : Nat} (hf : (spaced g depth v).length ≤ fuel) {rest : List Char}
    (hr : EndsValue rest) :
    readFields (fuel + 1) before (quoted k ++ ':' :: (g.value ++ (spaced g depth v ++ rest))) =
      match skipSpace rest with
      | ',' :: rest => readFields fuel (Fields.put k v before) (skipSpace rest)
      | '\x7d' :: rest => some (Fields.put k v before, rest)
      | _ => none := by
  have hcolon : ∀ cs, skipSpace (':' :: cs) = ':' :: cs := skipSpace_cons rfl
  rw [quoted_append, readFields, readText_quoted]
  simp only [Option.bind_eq_bind, Option.bind_some, hcolon, skipSpace_spaced g g.isSpace_value]
  rw [hv depth fuel rest hr hf]
  rfl

/-- The fields of an object are read up to its brace and put after those read so far. -/
theorem readFields_spaced {k : String} {v : Json} {fs : Fields Json}
    (h : ∀ f ∈ (k, v) :: fs, IsRead g f.2) {before : Fields Json}
    (hn : (Fields.names (before ++ (k, v) :: fs)).Nodup) (depth fuel : Nat) (rest : List Char)
    (hf : (quoted k ++ ':' :: (g.value ++ (spaced g (depth + 1) v ++
      spacedFields g depth fs))).length ≤ fuel) :
    readFields fuel before (quoted k ++ ':' :: (g.value ++ (spaced g (depth + 1) v ++
      (spacedFields g depth fs ++ rest)))) = some (before ++ (k, v) :: fs, rest) := by
  induction fs generalizing k v before fuel with
  | nil =>
    have hv : IsRead g v := h (k, v) List.mem_cons_self
    have hfresh : k ∉ Fields.names before := by
      rw [Fields.names, List.map_append, List.map_cons, List.nodup_append] at hn
      exact fun hm => hn.2.2 k hm k List.mem_cons_self rfl
    have hbrace : skipSpace (spacedFields g depth [] ++ rest) = '\x7d' :: rest := by
      rw [spacedFields, List.append_assoc, skipSpace_append (g.isSpace_line depth)]
      exact skipSpace_cons rfl _
    simp only [List.length_append, List.length_cons] at hf
    cases fuel with
    | zero => omega
    | succ fuel =>
      rw [readFields_field hv before (by omega) (endsValue_spacedFields g depth [] rest)]
      simp only [hbrace, Fields.put_of_notMem hfresh]
  | cons f fs ih =>
    have hv : IsRead g v := h (k, v) List.mem_cons_self
    obtain ⟨k', v'⟩ := f
    have hfresh : k ∉ Fields.names before := by
      rw [Fields.names, List.map_append, List.map_cons, List.nodup_append] at hn
      exact fun hm => hn.2.2 k hm k List.mem_cons_self rfl
    have hcomma : skipSpace (spacedFields g depth ((k', v') :: fs) ++ rest) =
        ',' :: (g.line (depth + 1) ++ (quoted k' ++ ':' :: (g.value ++
          (spaced g (depth + 1) v' ++ (spacedFields g depth fs ++ rest))))) := by
      rw [spacedFields, List.cons_append, skipSpace_cons rfl]
      simp
    have hname : ∀ cs, skipSpace (g.line (depth + 1) ++ (quoted k' ++ cs)) = quoted k' ++ cs := by
      intro cs
      rw [skipSpace_append (g.isSpace_line _), quoted_append, skipSpace_cons rfl]
    simp only [spacedFields, List.length_append, List.length_cons] at hf
    cases fuel with
    | zero => omega
    | succ fuel =>
      rw [readFields_field hv before (by omega)
        (endsValue_spacedFields g depth ((k', v') :: fs) rest)]
      simp only [hcomma, hname, Fields.put_of_notMem hfresh]
      rw [ih (fun f hf => h f (List.mem_cons_of_mem _ hf)) (by simpa using hn) fuel]
      · simp
      · simp only [List.length_append, List.length_cons]
        omega

theorem isRead_obj {fs : Fields Json} (hn : (Fields.names fs).Nodup)
    (h : ∀ f ∈ fs, IsRead g f.2) : IsRead g (obj fs) := by
  intro depth fuel rest _ hf
  cases fuel with
  | zero => exact absurd hf (by have := length_spaced_pos (g := g) depth (obj fs); omega)
  | succ fuel =>
    cases fs with
    | nil =>
      rw [spaced, List.cons_append, List.singleton_append, readValue]
      rfl
    | cons f fs =>
      obtain ⟨k, v⟩ := f
      have hnil : (Fields.names ([] ++ (k, v) :: fs)).Nodup := hn
      have hread := readFields_spaced h hnil depth fuel rest (by
        simp only [spaced, List.length_append, List.length_cons] at hf ⊢
        omega)
      have hname : ∀ cs, skipSpace (g.line (depth + 1) ++ (quoted k ++ cs)) =
          '"' :: (k.toList.flatMap escaped ++ '"' :: cs) := by
        intro cs
        rw [skipSpace_append (g.isSpace_line _), quoted_append, skipSpace_cons rfl]
      rw [quoted_append] at hread
      simp only [spaced, List.cons_append, List.append_assoc]
      rw [readValue, hname]
      split
      · next cs he => exact absurd (List.cons.inj he).1 (by decide)
      · rw [hread]
        rfl

theorem IsTidy.isRead {v : Json} (h : v.IsTidy) : IsRead g v := by
  induction h with
  | null => exact isRead_null
  | flag b => exact isRead_bool b
  | str s => exact isRead_str s
  | count n => exact isRead_ofWord n
  | arr _ ih => exact isRead_arr ih
  | obj hn _ ih => exact isRead_obj hn ih

/-- The whole text of a value, blanks included, is that value. -/
theorem readChars?_spaced {v : Json} (h : v.IsTidy) (g : Spacing) :
    readChars? (spaced g 0 v) = some v := by
  have hread := h.isRead (g := g) 0 ((spaced g 0 v).length + 1) [] (by simp [EndsValue]) (by omega)
  have hgap : ∀ c ∈ ([] : List Char), isSpace c := by simp
  have hskip := skipSpace_spaced g hgap 0 v []
  rw [List.append_nil] at hread
  rw [List.nil_append, List.append_nil] at hskip
  rw [readChars?, hskip, hread]
  rfl

theorem IsTidy.read?_compact {v : Json} (h : v.IsTidy) : read? v.compact = some v := by
  rw [read?, compact, String.toList_ofList, ← spaced_noSpacing 0 v]
  exact readChars?_spaced h noSpacing

theorem IsTidy.read?_pretty {v : Json} (h : v.IsTidy) : read? v.pretty = some v := by
  rw [read?, pretty, String.toList_ofList, ← spaced_lineSpacing 0 v]
  exact readChars?_spaced h lineSpacing

end reading

end TaintPolicy.Json
