import TaintPolicy.Proofs.QuotedText

/-!
# Texts that folding leaves alone

YAML drops the blanks around a line break inside a text and takes a next line for a line feed. So a
text comes back unchanged exactly if it holds no next line, no blank beside a line or paragraph
separator, and no mark of a document after one.
-/

namespace TaintPolicy.Yaml

section flat

/-- A line separator or a paragraph separator. -/
def isSeparator (c : Char) : Bool := c = '\u2028' || c = '\u2029'

/-- A text that folding leaves alone. -/
structure IsFlat (cs : List Char) : Prop where
  nextLine : '\x85' ∉ cs
  blankBefore : ∀ x, isSeparator x = true → ¬ [' ', x] <:+: cs
  blankAfter : ∀ x, isSeparator x = true → ¬ [x, ' '] <:+: cs
  markAfter : ∀ x ds, isSeparator x = true → looksLikeMark ds = true → ¬ x :: ds <:+ cs

variable {c : Char} {cs ds src text : List Char} {gap : Gap} {start : Bool}

theorem isRawBreak_iff : isRawBreak c = true ↔ c = '\x85' ∨ isSeparator c = true := by
  simp [isRawBreak, isSeparator, or_assoc]

theorem isSeparator_eq_false (h : isRawBreak c = false) : isSeparator c = false := by
  rw [← Bool.not_eq_true] at h ⊢
  exact fun hs => h (isRawBreak_iff.mpr (.inr hs))

theorem singleton_prefix_iff : [c] <+: cs ↔ cs.head? = some c := by
  cases cs with
  | nil => simp
  | cons d cs => simp [List.cons_prefix_cons, eq_comm]

theorem isFlat_cons_iff :
    IsFlat (c :: cs) ↔ IsFlat cs ∧ c ≠ '\x85' ∧
      (c = ' ' → ∀ x, cs.head? = some x → isSeparator x = false) ∧
      (isSeparator c = true → cs.head? ≠ some ' ' ∧ looksLikeMark cs = false) := by
  constructor
  · intro h
    refine ⟨⟨?_, ?_, ?_, ?_⟩, ?_, ?_, ?_⟩
    · exact fun hm => h.nextLine (List.mem_cons_of_mem c hm)
    · exact fun x hx hi => h.blankBefore x hx (List.infix_cons hi)
    · exact fun x hx hi => h.blankAfter x hx (List.infix_cons hi)
    · exact fun x ds hx hd hi => h.markAfter x ds hx hd (hi.trans (List.suffix_cons c cs))
    · rintro rfl
      exact h.nextLine List.mem_cons_self
    · rintro rfl x hx
      rw [← Bool.not_eq_true]
      intro hsep
      have hp : [' ', x] <+: ' ' :: cs := List.cons_prefix_cons.mpr ⟨rfl, singleton_prefix_iff.mpr hx⟩
      exact h.blankBefore x hsep hp.isInfix
    · intro hc
      refine ⟨fun hh => ?_, ?_⟩
      · have hp : [c, ' '] <+: c :: cs := List.cons_prefix_cons.mpr ⟨rfl, singleton_prefix_iff.mpr hh⟩
        exact h.blankAfter c hc hp.isInfix
      · rw [← Bool.not_eq_true]
        exact fun hm => h.markAfter c cs hc hm (List.suffix_refl _)
  · rintro ⟨h, hn, hb, hs⟩
    refine ⟨?_, ?_, ?_, ?_⟩
    · exact fun hm => (List.mem_cons.mp hm).elim (fun he => hn he.symm) h.nextLine
    · intro x hx hi
      rcases List.infix_cons_iff.mp hi with hp | hi
      · obtain ⟨rfl, hh⟩ := List.cons_prefix_cons.mp hp
        simp [hb rfl x (singleton_prefix_iff.mp hh)] at hx
      · exact h.blankBefore x hx hi
    · intro x hx hi
      rcases List.infix_cons_iff.mp hi with hp | hi
      · obtain ⟨rfl, hh⟩ := List.cons_prefix_cons.mp hp
        exact (hs hx).1 (singleton_prefix_iff.mp hh)
      · exact h.blankAfter x hx hi
    · intro x ds hx hd hi
      rcases List.suffix_cons_iff.mp hi with he | hi
      · obtain ⟨rfl, rfl⟩ := List.cons.inj he
        simp [(hs hx).2] at hd
      · exact h.markAfter x ds hx hd hi

theorem isFlat_nil : IsFlat [] :=
  ⟨by simp, by simp, by simp, by simp⟩

theorem IsFlat.of_append (h : IsFlat (ds ++ cs)) : IsFlat cs := by
  induction ds with
  | nil => exact h
  | cons d ds ih => exact ih (isFlat_cons_iff.mp h).1

/-- A character that is neither a blank nor a break takes no part in folding. -/
theorem isFlat_cons_of_plain (hs : c ≠ ' ') (hb : isRawBreak c = false) :
    IsFlat (c :: cs) ↔ IsFlat cs := by
  simp [isFlat_cons_iff, ne_nextLine hb, hs, isSeparator_eq_false hb]

/-- Folding only concerns texts with line breaks. -/
theorem isFlat_of_forall (h : ∀ c ∈ cs, isRawBreak c = false) : IsFlat cs := by
  induction cs with
  | nil => exact isFlat_nil
  | cons c cs ih =>
    obtain ⟨hc, hcs⟩ := List.forall_mem_cons.mp h
    refine isFlat_cons_iff.mpr ⟨ih hcs, ne_nextLine hc, fun _ x hx => ?_, fun hs => ?_⟩
    · exact isSeparator_eq_false (hcs x (List.mem_of_mem_head? hx))
    · rw [isSeparator_eq_false hc] at hs
      cases hs

/-- A gap that stands for what was read, with whether a line starts after it. -/
inductive Keeps : Bool → Gap → List Char → Prop
  | none : Keeps false .none []
  | blanks {bs : List Char} : bs ≠ [] → (∀ b ∈ bs, b = ' ') → Keeps false (.blanks bs) bs.reverse
  | lines {x : Char} {more : List Char} : isSeparator x = true →
    (∀ y ∈ more, isSeparator y = true) → Keeps true (.lines [x] more) (x :: more.reverse)

theorem ne_lineFeed_of_isSeparator (h : isSeparator c = true) : c ≠ '\n' := by
  rintro rfl
  revert h
  decide

theorem ne_blank_of_isSeparator (h : isSeparator c = true) : c ≠ ' ' := by
  rintro rfl
  revert h
  decide

theorem Keeps.text_eq (h : Keeps start gap src) : gap.text = src := by
  cases h with
  | none => rfl
  | blanks _ _ => rfl
  | lines hx _ => simp [Gap.text, ne_lineFeed_of_isSeparator hx]

/-- A gap stands for no more characters than were read for it. -/
theorem length_text_addBlank (gap : Gap) (c : Char) :
    (gap.addBlank c).text.length ≤ gap.text.length + 1 := by
  cases gap <;> simp [Gap.addBlank, Gap.text]

theorem length_text_addBreak (gap : Gap) (c : Char) :
    (gap.addBreak c).text.length ≤ gap.text.length + 1 := by
  have hone : (Gap.lines [c] []).text.length = 1 := by
    rw [Gap.text]
    split <;> simp
  cases gap with
  | none => rw [Gap.addBreak, hone]; omega
  | blanks cs => rw [Gap.addBreak, hone]; omega
  | lines first more =>
    simp only [Gap.addBreak, Gap.text]
    by_cases hf : first = ['\n']
    · by_cases hm : more = [] <;> simp [hf, hm]
    · simp [hf]
      omega

/-- Folding never makes a text longer. -/
theorem length_le_of_folded? (h : folded? start gap cs = some text) :
    text.length ≤ gap.text.length + cs.length := by
  induction cs generalizing start gap text with
  | nil =>
    cases h
    simp
  | cons c cs ih =>
    rw [folded?] at h
    rw [List.length_cons]
    split_ifs at h
    · have h1 := ih h
      have h2 := length_text_addBlank gap c
      omega
    · have h1 := ih h
      have h2 := length_text_addBreak gap (unifyBreak c)
      omega
    · obtain ⟨text', ht, rfl⟩ := Option.map_eq_some_iff.mp h
      have h1 := ih ht
      simp only [Gap.text, List.length_nil, List.length_append, List.length_cons] at h1 ⊢
      omega

/-- The gap hides no next line. -/
def Gap.IsClean : Gap → Prop
  | .none => True
  | .blanks cs => '\x85' ∉ cs
  | .lines first more => '\x85' ∉ first ∧ '\x85' ∉ more

theorem Gap.IsClean.notMem_text (h : gap.IsClean) : '\x85' ∉ gap.text := by
  cases gap with
  | none => simp [Gap.text]
  | blanks cs => simpa [Gap.text, Gap.IsClean] using h
  | lines first more =>
    rw [Gap.text]
    split_ifs
    · decide
    · simpa using h.2
    · simpa using ⟨h.1, h.2⟩

theorem unifyBreak_ne (c : Char) : unifyBreak c ≠ '\x85' := by
  rw [unifyBreak]
  split
  · decide
  · assumption

theorem Gap.IsClean.addBlank (h : gap.IsClean) : (gap.addBlank ' ').IsClean := by
  cases gap with
  | none => simp [Gap.addBlank, Gap.IsClean]
  | blanks cs => simpa [Gap.addBlank, Gap.IsClean] using h
  | lines first more => exact h

theorem Gap.IsClean.addBreak (h : gap.IsClean) (c : Char) :
    (gap.addBreak (unifyBreak c)).IsClean := by
  have hu : '\x85' ≠ unifyBreak c := (unifyBreak_ne c).symm
  cases gap with
  | none => simpa [Gap.addBreak, Gap.IsClean] using hu
  | blanks cs => simpa [Gap.addBreak, Gap.IsClean] using hu
  | lines first more => exact ⟨h.1, by simpa using ⟨hu, h.2⟩⟩

/-- A next line is never read. -/
theorem notMem_of_folded? (hg : gap.IsClean) (h : folded? start gap cs = some text) :
    '\x85' ∉ text := by
  induction cs generalizing start gap text with
  | nil =>
    cases h
    exact hg.notMem_text
  | cons c cs ih =>
    rw [folded?] at h
    split_ifs at h with hs hb
    · exact ih (hs ▸ hg.addBlank) h
    · exact ih (hg.addBreak c) h
    · obtain ⟨text', ht, rfl⟩ := Option.map_eq_some_iff.mp h
      have hc : c ≠ '\x85' := by rintro rfl; exact hb rfl
      have h1 := ih (by simp [Gap.IsClean]) ht
      simp only [List.mem_append, List.mem_cons, not_or]
      exact ⟨hg.notMem_text, hc.symm, h1⟩

theorem isFlat_append_of_blanks (hds : ∀ d ∈ ds, d = ' ')
    (hc : ∀ x, cs.head? = some x → isSeparator x = false) : IsFlat (ds ++ cs) ↔ IsFlat cs := by
  induction ds with
  | nil => rfl
  | cons d ds ih =>
    obtain ⟨rfl, hrest⟩ := List.forall_mem_cons.mp hds
    have hh : ∀ x, (ds ++ cs).head? = some x → isSeparator x = false := by
      cases ds with
      | nil => exact hc
      | cons d ds =>
        rintro x hx
        obtain rfl : d = x := by simpa using hx
        rw [hrest d List.mem_cons_self]
        rfl
    rw [List.cons_append, isFlat_cons_iff, ih hrest]
    refine and_iff_left ⟨by decide, fun _ => hh, fun hb => ?_⟩
    exact absurd rfl (ne_blank_of_isSeparator hb)

theorem isFlat_append_of_separators (hds : ∀ d ∈ ds, isSeparator d = true)
    (hc : cs.head? ≠ some ' ') (hm : looksLikeMark cs = false) : IsFlat (ds ++ cs) ↔ IsFlat cs := by
  induction ds with
  | nil => rfl
  | cons d ds ih =>
    obtain ⟨hd, hrest⟩ := List.forall_mem_cons.mp hds
    have hn : d ≠ '\x85' := by rintro rfl; revert hd; decide
    have hh : (ds ++ cs).head? ≠ some ' ' ∧ looksLikeMark (ds ++ cs) = false := by
      cases ds with
      | nil => exact ⟨hc, hm⟩
      | cons e es =>
        have he := hrest e List.mem_cons_self
        refine ⟨by simpa using ne_blank_of_isSeparator he, ?_⟩
        rw [← Bool.not_eq_true, looksLikeMark_iff]
        rintro ⟨x, _, _, hx, h, -⟩
        obtain ⟨rfl, -⟩ := List.cons.inj h
        rcases hx with rfl | rfl <;> revert he <;> decide
    rw [List.cons_append, isFlat_cons_iff, ih hrest]
    exact and_iff_left ⟨hn, fun hb => absurd hb (ne_blank_of_isSeparator hd), fun _ => hh⟩

theorem Keeps.isClean (h : Keeps start gap src) : gap.IsClean := by
  have hne : ∀ y, isSeparator y = true → y ≠ '\x85' := by
    rintro y hy rfl
    revert hy
    decide
  cases h with
  | none => trivial
  | blanks _ hbs => exact fun hm => absurd (hbs _ hm) (by decide)
  | lines hx hmore =>
    exact ⟨by simpa using (hne _ hx).symm, fun hm => hne _ (hmore _ hm) rfl⟩

/-- A blank before a separator is lost. -/
theorem not_isFlat_of_blank_separator {bs : List Char} (hne : bs ≠ []) (hbs : ∀ b ∈ bs, b = ' ')
    (hx : isSeparator c = true) : ¬ IsFlat (bs ++ c :: cs) := by
  intro h
  obtain ⟨bs, b, rfl⟩ := (List.eq_nil_or_concat bs).resolve_left hne
  obtain rfl : b = ' ' := hbs b (by simp)
  rw [List.concat_eq_append, List.append_assoc] at h
  have hf := (isFlat_cons_iff.mp h.of_append).2.2.1 rfl c rfl
  simp [hx] at hf

/-- Neither a blank nor a document mark may follow a separator. -/
theorem not_isFlat_of_separator {x : Char} {more : List Char} (hx : isSeparator x = true)
    (hmore : ∀ y ∈ more, isSeparator y = true)
    (h : cs.head? = some ' ' ∨ looksLikeMark cs = true) :
    ¬ IsFlat (x :: more.reverse ++ cs) := by
  intro hf
  obtain ⟨ys, y, he, hy⟩ : ∃ ys y, x :: more.reverse = ys ++ [y] ∧ isSeparator y = true := by
    cases more with
    | nil => exact ⟨[], x, rfl, hx⟩
    | cons z more => exact ⟨x :: more.reverse, z, by simp, hmore z List.mem_cons_self⟩
  rw [he, List.append_assoc] at hf
  obtain ⟨hb, hm⟩ := (isFlat_cons_iff.mp hf.of_append).2.2.2 hy
  rcases h with h | h
  · exact hb h
  · exact absurd h (Bool.eq_false_iff.mp hm)

/-- What is read after a gap that stands for what was read is all that is there, exactly if folding
leaves it alone. -/
theorem folded?_eq_some_iff (hk : Keeps start gap src) :
    folded? start gap cs = some (src ++ cs) ↔ IsFlat (src ++ cs) := by
  induction cs generalizing start gap src with
  | nil =>
    rw [folded?, hk.text_eq, List.append_nil]
    refine iff_of_true rfl ?_
    have h0 := List.append_nil src
    cases hk with
    | none => exact isFlat_nil
    | blanks _ hb =>
      rw [← h0]
      exact (isFlat_append_of_blanks (by simpa using hb) (by simp)).mpr isFlat_nil
    | lines hx hmore =>
      rw [← h0]
      refine (isFlat_append_of_separators ?_ (by simp) rfl).mpr isFlat_nil
      simpa [hx] using hmore
  | cons c cs ih =>
    have hassoc : src ++ c :: cs = src ++ [c] ++ cs := by simp
    rw [folded?]
    split_ifs with hs hb hm
    · -- A blank: kept after text or blanks, lost after a separator.
      subst hs
      cases hk with
      | none => exact ih (.blanks (List.cons_ne_nil ' ' []) (by simp))
      | @blanks bs hne hbs =>
        have hk' := Keeps.blanks (List.cons_ne_nil ' ' bs) (by simpa using hbs)
        rw [hassoc]
        rw [List.reverse_cons] at hk'
        exact ih hk'
      | @lines x more hx hmore =>
        refine iff_of_false (fun h => ?_) (not_isFlat_of_separator hx hmore (.inl rfl))
        have hl := length_le_of_folded? h
        rw [Gap.addBlank, (Keeps.lines hx hmore).text_eq] at hl
        simp at hl
        omega
    · by_cases hn : c = '\x85'
      · -- A next line is read as something else.
        refine iff_of_false (fun h => ?_) fun h => h.nextLine (by simp [hn])
        exact notMem_of_folded? (hk.isClean.addBreak c) h (by simp [hn])
      · have hx : isSeparator c = true := (isRawBreak_iff.mp hb).resolve_left hn
        have hu : unifyBreak c = c := by rw [unifyBreak, if_neg hn]
        rw [hu]
        cases hk with
        | none => exact ih (.lines hx (List.forall_mem_nil _))
        | @blanks bs hne hbs =>
          refine iff_of_false (fun h => ?_)
            (not_isFlat_of_blank_separator (by simpa using hne) (by simpa using hbs) hx)
          have hl := length_le_of_folded? h
          have hpos := List.length_pos_iff.mpr hne
          rw [Gap.addBreak, (Keeps.lines hx (by simp)).text_eq] at hl
          simp at hl
          omega
        | @lines x more hx' hmore =>
          have hk' := Keeps.lines hx' (List.forall_mem_cons.mpr ⟨hx, hmore⟩)
          rw [hassoc]
          rw [List.reverse_cons] at hk'
          exact ih hk'
    · -- A document mark at the start of a line.
      cases hk with
      | none => simp at hm
      | blanks _ _ => simp at hm
      | lines hx hmore =>
        refine iff_of_false (by simp) (not_isFlat_of_separator hx hmore (.inr ?_))
        simpa using hm
    · rw [Bool.not_eq_true] at hb
      have hfold : folded? false .none cs = some cs ↔ IsFlat cs := ih .none
      have hplain : IsFlat (c :: cs) ↔ IsFlat cs := isFlat_cons_of_plain hs hb
      have hflat : IsFlat (src ++ c :: cs) ↔ IsFlat (c :: cs) := by
        have hx : isSeparator c = false := isSeparator_eq_false hb
        cases hk with
        | none => rfl
        | blanks _ hbs => exact isFlat_append_of_blanks (by simpa using hbs) (by simpa using hx)
        | lines hx' hmore =>
          refine isFlat_append_of_separators ?_ (by simpa using hs) (by simpa using hm)
          simpa [hx'] using hmore
      rw [hflat, hplain, ← hfold, hk.text_eq, Option.map_eq_some_iff]
      simp

end flat

end TaintPolicy.Yaml
