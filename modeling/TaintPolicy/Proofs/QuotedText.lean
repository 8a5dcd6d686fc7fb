import Mathlib.Tactic.SplitIfs
import TaintPolicy.Json.Printer
import TaintPolicy.Yaml.Lexeme

/-!
# Quoted texts in JSON and in YAML

What the rules of YAML make of a text that JSON has put into quotes. The escapes of JSON mean the
same in YAML. But JSON writes three line breaks as they are, and YAML folds lines: blanks around a
break are dropped, a next line counts as a line feed, and a line may look like the mark of a
document. So a text comes back unchanged exactly if it holds no next line, no blank beside a line or
paragraph separator, and no document mark after one.
-/

namespace TaintPolicy.Yaml

/-- Ends a line and is written by JSON as it is. -/
def isRawBreak (c : Char) : Bool := c = '\x85' || c = '\u2028' || c = '\u2029'

/-- How a reader takes a line break that is no carriage return. -/
def unifyBreak (c : Char) : Char := if c = '\x85' then '\n' else c

/-- The inside of the quotes as a reader takes it. -/
def shown (cs : List Char) : List Char := (cs.flatMap Json.escaped).map unifyBreak

/-- Three hyphens or points before a gap. -/
def looksLikeMark : List Char → Bool
  | a :: b :: c :: d :: _ =>
    a = b && b = c && (a = '-' || a = '.') && (d = ' ' || isRawBreak d)
  | _ => false

/-- What is read of a quoted text after a gap, where `start` tells that a line starts here; nothing
where a line looks like the mark of a document. -/
def folded? (start : Bool) (gap : Gap) : List Char → Option (List Char)
  | [] => some gap.text
  | c :: cs =>
    if c = ' ' then folded? false (gap.addBlank c) cs
    else if isRawBreak c then folded? true (gap.addBreak (unifyBreak c)) cs
    else if start && looksLikeMark (c :: cs) then none
    else (folded? false .none cs).map fun text => gap.text ++ c :: text

section characters

@[simp] theorem shown_nil : shown [] = [] := rfl

theorem shown_cons (c : Char) (cs : List Char) :
    shown (c :: cs) = (Json.escaped c).map unifyBreak ++ shown cs := by
  simp [shown]

theorem unifyBreaks_eq_map {cs : List Char} (h : '\r' ∉ cs) :
    unifyBreaks cs = cs.map unifyBreak := by
  induction cs with
  | nil => rfl
  | cons c cs ih =>
    rw [List.mem_cons, not_or] at h
    rw [unifyBreaks, ih h.2, List.map_cons, unifyBreak]
    · simp [Ne.symm h.1]
    · intro _ hc _
      exact h.1 hc.symm

theorem isLineBreak_unifyBreak {c : Char} (h : 0x20 ≤ c.toNat) :
    isLineBreak (unifyBreak c) = isRawBreak c := by
  have hn : c ≠ '\n' := by rintro rfl; revert h; decide
  have hr : c ≠ '\r' := by rintro rfl; revert h; decide
  by_cases hx : c = '\x85'
  · subst hx
    rfl
  · simp [unifyBreak, hx, isLineBreak, isRawBreak, hn, hr]

theorem ne_nextLine {c : Char} (h : isRawBreak c = false) : c ≠ '\x85' := by
  rintro rfl
  revert h
  decide

theorem unifyBreak_eq_self {c : Char} (h : isRawBreak c = false) : unifyBreak c = c := by
  rw [unifyBreak, if_neg (ne_nextLine h)]

/-- The printable characters of ASCII. -/
def isGraphic (c : Char) : Bool := 0x20 ≤ c.toNat && c.toNat ≤ 0x7E

theorem ne_of_isGraphic {c d : Char} (hc : isGraphic c = true) (hd : isGraphic d = false) :
    c ≠ d := by
  rintro rfl
  simp [hc] at hd

theorem unifyBreak_of_isGraphic {c : Char} (h : isGraphic c = true) : unifyBreak c = c := by
  rw [unifyBreak, if_neg (ne_of_isGraphic h (by decide))]

theorem isLineBreak_of_isGraphic {c : Char} (h : isGraphic c = true) :
    isLineBreak c = false := by
  have hne : ∀ d, isGraphic d = false → c ≠ d := fun d => ne_of_isGraphic h
  simp [isLineBreak, hne '\n' (by decide), hne '\r' (by decide), hne '\x85' (by decide),
    hne '\u2028' (by decide), hne '\u2029' (by decide)]

theorem map_unifyBreak_of_isGraphic {cs : List Char} (h : ∀ c ∈ cs, isGraphic c = true) :
    cs.map unifyBreak = cs :=
  (List.map_congr_left fun c hc => unifyBreak_of_isGraphic (h c hc)).trans (List.map_id cs)

theorem isGraphic_hexDigit : ∀ n < 16, isGraphic (hexDigit n) = true := by
  decide

/-- The characters that JSON does not write as they are. -/
def IsEscaped (c : Char) : Prop := c = '"' ∨ c = '\\' ∨ c.toNat < 0x20

theorem IsEscaped.ne {c d : Char} (hc : IsEscaped c) (hd : 0x20 ≤ d.toNat) (hq : d ≠ '"')
    (hb : d ≠ '\\') : c ≠ d := by
  rintro rfl
  rcases hc with rfl | rfl | hc
  · exact hq rfl
  · exact hb rfl
  · omega

/-- The ways in which JSON writes a character. -/
inductive Written : Char → List Char → Prop
  | letter {c e : Char} : IsEscaped c → escapeValue? e = some c → isGraphic e = true →
    Written c ['\\', e]
  | digits {c : Char} : c.toNat < 0x20 →
    Written c ['\\', 'u', '0', '0', hexDigit (c.toNat / 16), hexDigit (c.toNat % 16)]
  | self {c : Char} : 0x20 ≤ c.toNat → c ≠ '"' → c ≠ '\\' → Written c [c]

theorem written_escaped (c : Char) : Written c (Json.escaped c) := by
  by_cases hm : c ∈ ['"', '\\', '\x08', '\x0c', '\n', '\r', '\t']
  · simp only [List.mem_cons, List.not_mem_nil, or_false] at hm
    have hlow : ∀ d : Char, d.toNat < 0x20 → IsEscaped d := fun _ hd => .inr (.inr hd)
    rcases hm with rfl | rfl | rfl | rfl | rfl | rfl | rfl
    · exact .letter (.inl rfl) rfl rfl
    · exact .letter (.inr (.inl rfl)) rfl rfl
    all_goals exact .letter (hlow _ (by decide)) rfl rfl
  · simp only [List.mem_cons, List.not_mem_nil, or_false, not_or] at hm
    obtain ⟨hq, hb, h₁, h₂, h₃, h₄, h₅⟩ := hm
    rw [Json.escaped, if_neg hq, if_neg hb, if_neg h₁, if_neg h₂, if_neg h₃, if_neg h₄, if_neg h₅]
    by_cases hlow : c.toNat < 0x20
    · rw [if_pos hlow]
      exact .digits hlow
    · rw [if_neg hlow]
      exact .self (by omega) hq hb

/-- A character is written as it is, or as a backslash and printable characters. -/
theorem escaped_cases (c : Char) :
    (Json.escaped c = [c] ∧ 0x20 ≤ c.toNat ∧ c ≠ '"' ∧ c ≠ '\\') ∨
    ∃ cs, Json.escaped c = '\\' :: cs ∧ (∀ d ∈ cs, isGraphic d = true) ∧
      c ≠ ' ' ∧ isRawBreak c = false ∧ c ≠ '-' ∧ c ≠ '.' := by
  have hplain : IsEscaped c → c ≠ ' ' ∧ isRawBreak c = false ∧ c ≠ '-' ∧ c ≠ '.' := by
    intro hc
    have hne : ∀ d : Char, 0x20 ≤ d.toNat → d ≠ '"' → d ≠ '\\' → c ≠ d := fun d => hc.ne
    refine ⟨hne ' ' (by decide) (by decide) (by decide), ?_,
      hne '-' (by decide) (by decide) (by decide), hne '.' (by decide) (by decide) (by decide)⟩
    simp [isRawBreak, hne '\x85' (by decide) (by decide) (by decide),
      hne '\u2028' (by decide) (by decide) (by decide),
      hne '\u2029' (by decide) (by decide) (by decide)]
  have hw := written_escaped c
  generalize Json.escaped c = cs at hw ⊢
  cases hw with
  | letter hc _ hg => exact .inr ⟨_, rfl, by simpa using hg, hplain hc⟩
  | digits hlow =>
    have h1 := isGraphic_hexDigit (c.toNat / 16) (by omega)
    have h2 := isGraphic_hexDigit (c.toNat % 16) (by omega)
    refine .inr ⟨_, rfl, ?_, hplain (.inr (.inr hlow))⟩
    simp [h1, h2, show isGraphic 'u' = true from rfl, show isGraphic '0' = true from rfl]
  | self hc hq hb => exact .inl ⟨rfl, hc, hq, hb⟩

/-- What is shown of a character: itself but for the next line, or printable characters. -/
theorem shown_cases (c : Char) :
    ((Json.escaped c).map unifyBreak = [unifyBreak c] ∧ 0x20 ≤ c.toNat) ∨
    ((∀ d ∈ (Json.escaped c).map unifyBreak, isGraphic d = true) ∧ c ≠ ' ' ∧
      isRawBreak c = false) := by
  rcases escaped_cases c with ⟨he, hc, -⟩ | ⟨es, he, hes, hs, hb, -⟩
  · exact .inl ⟨by rw [he, List.map_singleton], hc⟩
  · have hall : ∀ d ∈ '\\' :: es, isGraphic d = true := by
      rw [List.forall_mem_cons]
      exact ⟨rfl, hes⟩
    exact .inr ⟨by rwa [he, map_unifyBreak_of_isGraphic hall], hs, hb⟩

theorem shown_ne_nil (c : Char) : (Json.escaped c).map unifyBreak ≠ [] := by
  rcases escaped_cases c with ⟨he, -⟩ | ⟨es, he, -⟩ <;> simp [he]

end characters

section reading

variable {c : Char} {cs rest done : List Char} {gap : Gap} {m : Mark}

theorem atDocumentMark_of_ne (h : c ≠ '-') (h' : c ≠ '.') : atDocumentMark m (c :: cs) = false := by
  unfold atDocumentMark
  split
  · next heq =>
    obtain ⟨rfl, -⟩ := List.cons.inj heq
    simp [h, h']
  · rfl

theorem readQuoted_backslash :
    readQuoted false .nothing gap done m ('\\' :: cs) =
      readQuoted false .name .none (gap.text.reverse ++ done) (m.next '\\') cs := by
  have hd : atDocumentMark m ('\\' :: cs) = false := atDocumentMark_of_ne (by decide) (by decide)
  rw [readQuoted]
  simp [isBlank, isLineBreak, hd]

theorem readQuoted_name {e : Char} (h : escapeValue? e = some c) (hb : isLineBreak e = false) :
    readQuoted false .name gap done m (e :: cs) =
      readQuoted false .nothing .none (c :: done) (m.next e) cs := by
  rw [readQuoted]
  simp [h, hb]

/-- Four digits after a backslash and the letter for them. -/
theorem readQuoted_digits {n : Nat} (h : n < 0x20) :
    readQuoted false .name gap done m ('u' :: '0' :: '0' :: hexDigit (n / 16) ::
      hexDigit (n % 16) :: cs) =
      readQuoted false .nothing .none (Char.ofNat n :: done)
        (m.past ['u', '0', '0', hexDigit (n / 16), hexDigit (n % 16)]) cs := by
  have h0 : hexValue? '0' = some 0 := by decide
  have h1 : hexValue? (hexDigit (n / 16)) = some (n / 16) := hexValue?_hexDigit _ (by omega)
  have h2 : hexValue? (hexDigit (n % 16)) = some (n % 16) := hexValue?_hexDigit _ (by omega)
  have hv : n.isValidChar := .inl (by omega)
  have hn : 16 * (n / 16) + n % 16 = n := Nat.div_add_mod n 16
  simp [readQuoted, isLineBreak, escapeValue?, escapeDigits?, h0, h1, h2, hn, codePoint?, hv,
    Mark.past]

/-- A character that stands for itself, not at the start of a document mark. -/
theorem readQuoted_self (hc : 0x20 ≤ c.toNat) (hs : c ≠ ' ') (hb : isRawBreak c = false)
    (hq : c ≠ '"') (hbs : c ≠ '\\') (hm : atDocumentMark m (c :: cs) = false) :
    readQuoted false .nothing gap done m (c :: cs) =
      readQuoted false .nothing .none (c :: (gap.text.reverse ++ done)) (m.next c) cs := by
  have hl : isLineBreak c = false := by
    rw [← hb, ← isLineBreak_unifyBreak hc, unifyBreak_eq_self hb]
  have ht : c ≠ '\t' := by rintro rfl; revert hc; decide
  rw [readQuoted]
  simp [isBlank, hs, ht, hl, hm, hq, hbs]

/-- A character that starts neither a fold nor a document mark, in any spelling. -/
theorem readQuoted_escaped (hs : c ≠ ' ') (hb : isRawBreak c = false)
    (hm : atDocumentMark m ((Json.escaped c).map unifyBreak ++ rest) = false) :
    readQuoted false .nothing gap done m ((Json.escaped c).map unifyBreak ++ rest) =
      readQuoted false .nothing .none (c :: (gap.text.reverse ++ done))
        (m.past ((Json.escaped c).map unifyBreak)) rest := by
  have hw := written_escaped c
  generalize Json.escaped c = es at hw hm ⊢
  cases hw with
  | @letter e _ he hg =>
    have hl : ['\\', e].map unifyBreak = ['\\', e] :=
      map_unifyBreak_of_isGraphic (List.forall_mem_cons.mpr ⟨rfl, by simpa using hg⟩)
    rw [hl]
    exact readQuoted_backslash.trans (readQuoted_name he (isLineBreak_of_isGraphic hg))
  | digits hlow =>
    have h1 := unifyBreak_of_isGraphic (isGraphic_hexDigit (c.toNat / 16) (by omega))
    have h2 := unifyBreak_of_isGraphic (isGraphic_hexDigit (c.toNat % 16) (by omega))
    have hl : ['\\', 'u', '0', '0', hexDigit (c.toNat / 16), hexDigit (c.toNat % 16)].map
        unifyBreak = ['\\', 'u', '0', '0', hexDigit (c.toNat / 16), hexDigit (c.toNat % 16)] := by
      simp only [List.map_cons, List.map_nil, h1, h2]
      rfl
    rw [hl]
    refine readQuoted_backslash.trans ((readQuoted_digits hlow).trans ?_)
    rw [Char.ofNat_toNat]
    rfl
  | self hc hq hbs =>
    rw [List.map_singleton, unifyBreak_eq_self hb] at hm ⊢
    exact readQuoted_self hc hs hb hq hbs hm

end reading

section marks

variable {c x : Char} {cs rest us : List Char} {m : Mark}

theorem atDocumentMark_iff :
    atDocumentMark m cs = true ↔
      m.column = 0 ∧ ∃ x us, (x = '-' ∨ x = '.') ∧ cs = x :: x :: x :: us ∧ atGap us = true := by
  unfold atDocumentMark
  split
  · next a b c rest =>
    simp only [Bool.and_eq_true, Bool.or_eq_true, decide_eq_true_eq, List.cons.injEq]
    constructor
    · rintro ⟨⟨⟨⟨h0, rfl⟩, rfl⟩, hx⟩, hg⟩
      exact ⟨h0, _, _, hx, ⟨rfl, rfl, rfl, rfl⟩, hg⟩
    · rintro ⟨h0, x, us, hx, ⟨rfl, rfl, rfl, rfl⟩, hg⟩
      exact ⟨⟨⟨⟨h0, rfl⟩, rfl⟩, hx⟩, hg⟩
  · next hne =>
    simp only [Bool.false_eq_true, false_iff, not_and]
    rintro - ⟨x, us, -, rfl, -⟩
    exact hne _ _ _ _ rfl

theorem looksLikeMark_iff :
    looksLikeMark cs = true ↔
      ∃ x d us, (x = '-' ∨ x = '.') ∧ cs = x :: x :: x :: d :: us ∧ (d = ' ' ∨ isRawBreak d) := by
  unfold looksLikeMark
  split
  · next a b c d rest =>
    simp only [Bool.and_eq_true, Bool.or_eq_true, decide_eq_true_eq, List.cons.injEq]
    constructor
    · rintro ⟨⟨⟨rfl, rfl⟩, hx⟩, hd⟩
      exact ⟨_, _, _, hx, ⟨rfl, rfl, rfl, rfl, rfl⟩, hd⟩
    · rintro ⟨x, d, us, hx, ⟨rfl, rfl, rfl, rfl, rfl⟩, hd⟩
      exact ⟨⟨⟨rfl, rfl⟩, hx⟩, hd⟩
  · next hne =>
    simp only [Bool.false_eq_true, false_iff]
    rintro ⟨x, d, us, -, rfl, -⟩
    exact hne _ _ _ _ _ rfl

/-- Hyphens and points are shown as they are, and nothing else is shown as one. -/
theorem shown_cons_append_eq_iff (hx : x = '-' ∨ x = '.') :
    shown (c :: cs) ++ rest = x :: us ↔ c = x ∧ shown cs ++ rest = us := by
  rw [shown_cons]
  rcases escaped_cases c with ⟨he, -⟩ | ⟨es, he, -, -, -, hm, hp⟩
  · have hu : unifyBreak c = x ↔ c = x := by
      rw [unifyBreak]
      split
      · rcases hx with rfl | rfl <;> simp_all
      · rfl
    simp [he, hu]
  · have hb : unifyBreak '\\' = '\\' := by decide
    rcases hx with rfl | rfl <;> simp [he, hb, hm, hp]

theorem atGap_shown_cons : atGap (shown (c :: cs) ++ rest) = (c = ' ' || isRawBreak c) := by
  rw [shown_cons]
  rcases escaped_cases c with ⟨he, hc, -⟩ | ⟨es, he, -, hs, hb, -⟩
  · have ht : unifyBreak c ≠ '\t' := by
      rw [unifyBreak]
      split
      · decide
      · rintro rfl
        revert hc
        decide
    have hs : unifyBreak c = ' ' ↔ c = ' ' := by
      rw [unifyBreak]
      split
      · simp_all
      · rfl
    simp [he, atGap, isBlank, ht, hs, isLineBreak_unifyBreak hc]
  · simp [he, atGap, isBlank, hs, hb, show unifyBreak '\\' = '\\' from rfl, isLineBreak]

/-- Whether a document mark is read shows before escaping. -/
theorem atDocumentMark_shown (cs rest : List Char) :
    atDocumentMark m (shown cs ++ '"' :: rest) = (m.column = 0 && looksLikeMark cs) := by
  have hq : ∀ {x : Char} {us : List Char}, (x = '-' ∨ x = '.') → '"' :: rest ≠ x :: us := by
    rintro x us (rfl | rfl) <;> simp
  rw [Bool.eq_iff_iff, Bool.and_eq_true, decide_eq_true_eq, atDocumentMark_iff, looksLikeMark_iff]
  apply and_congr_right'
  constructor
  · rintro ⟨x, us, hx, he, hg⟩
    match cs with
    | [] => exact absurd he (hq hx)
    | [a] => exact absurd ((shown_cons_append_eq_iff hx).mp he).2 (hq hx)
    | [a, b] =>
      have h1 := ((shown_cons_append_eq_iff hx).mp he).2
      exact absurd ((shown_cons_append_eq_iff hx).mp h1).2 (hq hx)
    | a :: b :: c :: ds =>
      obtain ⟨rfl, h1⟩ := (shown_cons_append_eq_iff hx).mp he
      obtain ⟨rfl, h2⟩ := (shown_cons_append_eq_iff hx).mp h1
      obtain ⟨rfl, rfl⟩ := (shown_cons_append_eq_iff hx).mp h2
      cases ds with
      | nil => simp [atGap, isBlank, isLineBreak] at hg
      | cons d ds =>
        rw [atGap_shown_cons] at hg
        exact ⟨c, d, ds, hx, rfl, by simpa using hg⟩
  · rintro ⟨x, d, us, hx, rfl, hd⟩
    refine ⟨x, shown (d :: us) ++ '"' :: rest, hx, ?_, ?_⟩
    · simp only [shown_cons_append_eq_iff hx, true_and]
    · rw [atGap_shown_cons]
      simpa using hd

end marks

section folding

variable {c : Char} {cs rest done : List Char} {gap : Gap} {m : Mark}

theorem column_next (m : Mark) (c : Char) :
    (m.next c).column = if isLineBreak c then 0 else m.column + 1 := by
  rw [Mark.next]
  split <;> rfl

theorem past_append (m : Mark) (cs ds : List Char) : m.past (cs ++ ds) = (m.past cs).past ds :=
  List.foldl_append

theorem past_cons (m : Mark) (c : Char) (cs : List Char) : m.past (c :: cs) = (m.next c).past cs :=
  rfl

theorem index_past (m : Mark) (cs : List Char) : (m.past cs).index = m.index + cs.length := by
  induction cs generalizing m with
  | nil => rfl
  | cons c cs ih =>
    have hn : (m.next c).index = m.index + 1 := by
      rw [Mark.next]
      split <;> rfl
    rw [past_cons, ih, hn, List.length_cons]
    omega

theorem line_past (m : Mark) (cs : List Char) :
    (m.past cs).line = m.line + cs.countP isLineBreak := by
  induction cs generalizing m with
  | nil => rfl
  | cons c cs ih =>
    rw [past_cons, ih, Mark.next, List.countP_cons]
    split
    · simp; omega
    · simp

/-- Within a line the column is behind that of its start. -/
theorem column_past_ne_zero (h : ∀ c ∈ cs, isLineBreak c = false) (hne : cs ≠ []) :
    (m.past cs).column ≠ 0 := by
  obtain ⟨cs, c, rfl⟩ := (List.eq_nil_or_concat cs).resolve_left hne
  rw [List.concat_eq_append, past_append, past_cons, Mark.past, List.foldl_nil, column_next,
    h c (by simp)]
  simp

theorem isLineBreak_of_mem_escaped (hb : isRawBreak c = false) :
    ∀ d ∈ (Json.escaped c).map unifyBreak, isLineBreak d = false := by
  rcases shown_cases c with ⟨he, hc⟩ | ⟨hp, -⟩
  · simp [he, isLineBreak_unifyBreak hc, hb]
  · exact fun d hd => isLineBreak_of_isGraphic (hp d hd)

theorem isBlank_unifyBreak (hc : 0x20 ≤ c.toNat) (hs : c ≠ ' ') : isBlank (unifyBreak c) = false := by
  have ht : c ≠ '\t' := by rintro rfl; revert hc; decide
  rw [unifyBreak]
  split
  · decide
  · simp [isBlank, hs, ht]

theorem readQuoted_mark (hm : atDocumentMark m cs = true) :
    readQuoted false .nothing gap done m cs = none := by
  obtain ⟨-, x, us, hx, rfl, -⟩ := atDocumentMark_iff.mp hm
  have hb : isBlank x = false := by rcases hx with rfl | rfl <;> decide
  have hl : isLineBreak x = false := by rcases hx with rfl | rfl <;> decide
  rw [readQuoted]
  simp [hb, hl, hm]

/-- A quoted text is read as its folds. -/
theorem readQuoted_shown (cs rest : List Char) :
    readQuoted false .nothing gap done m (shown cs ++ '"' :: rest) =
      (folded? (m.column = 0) gap cs).map fun text =>
        (done.reverse ++ text, (m.past (shown cs)).next '"', rest) := by
  induction cs generalizing gap done m with
  | nil =>
    have hm : atDocumentMark m ('"' :: rest) = false := atDocumentMark_of_ne (by decide) (by decide)
    rw [shown_nil, List.nil_append, readQuoted]
    simp [isBlank, isLineBreak, hm, folded?, Mark.past]
  | cons c cs ih =>
    have hmark := atDocumentMark_shown (m := m) (c :: cs) rest
    rw [folded?, shown_cons, past_append, List.append_assoc]
    rw [shown_cons, List.append_assoc] at hmark
    split_ifs with hs hb hm
    · subst hs
      have hc : (m.next ' ').column ≠ 0 := by simp [column_next, isLineBreak]
      have he : (Json.escaped ' ').map unifyBreak = [' '] := by decide
      rw [he, List.singleton_append, readQuoted]
      simp only [isBlank, decide_true, Bool.true_or, if_true]
      rw [ih, decide_eq_false hc]
      rfl
    · obtain ⟨he, hc⟩ := (shown_cases c).resolve_right fun h => by simp [hb] at h
      have hl : isLineBreak (unifyBreak c) = true := by rw [isLineBreak_unifyBreak hc, hb]
      have hcol : (m.next (unifyBreak c)).column = 0 := by rw [column_next, if_pos hl]
      rw [he, List.singleton_append, readQuoted]
      simp only [isBlank_unifyBreak hc hs, hl, Bool.false_eq_true, if_false, if_true]
      rw [ih, decide_eq_true hcol]
      rfl
    · rw [Bool.not_eq_true] at hb
      rw [hm] at hmark
      rw [readQuoted_mark hmark, Option.map_none]
    · rw [Bool.not_eq_true] at hm hb
      rw [hm] at hmark
      have hcol : (m.past ((Json.escaped c).map unifyBreak)).column ≠ 0 :=
        column_past_ne_zero (isLineBreak_of_mem_escaped hb) (shown_ne_nil c)
      rw [readQuoted_escaped hs hb hmark, ih, decide_eq_false hcol, Option.map_map]
      congr 1
      funext text
      simp

/-- After a line break nothing looks like the mark of a document. -/
def HasNoMark (cs : List Char) : Prop :=
  ∀ x ds, isRawBreak x = true → looksLikeMark ds = true → ¬ x :: ds <:+ cs

theorem hasNoMark_cons_iff :
    HasNoMark (c :: cs) ↔ (isRawBreak c = true → looksLikeMark cs = false) ∧ HasNoMark cs := by
  constructor
  · intro h
    refine ⟨fun hc => ?_, fun x ds hx hd hs => h x ds hx hd (hs.trans (List.suffix_cons c cs))⟩
    rw [← Bool.not_eq_true]
    exact fun hm => h c cs hc hm (List.suffix_refl _)
  · rintro ⟨hc, h⟩ x ds hx hd hs
    rcases List.suffix_cons_iff.mp hs with he | hs
    · obtain ⟨rfl, rfl⟩ := List.cons.inj he
      simp [hc hx] at hd
    · exact h x ds hx hd hs

theorem looksLikeMark_cons_of_ne (h : c ≠ '-') (h' : c ≠ '.') : looksLikeMark (c :: cs) = false := by
  rw [← Bool.not_eq_true, looksLikeMark_iff]
  rintro ⟨x, d, us, hx, he, -⟩
  obtain ⟨rfl, -⟩ := List.cons.inj he
  exact hx.elim h h'

/-- Nothing is read exactly where a line looks like the mark of a document. -/
theorem isSome_folded?_iff {start : Bool} :
    (folded? start gap cs).isSome = true ↔
      (start = true → looksLikeMark cs = false) ∧ HasNoMark cs := by
  induction cs generalizing start gap with
  | nil => simp [folded?, looksLikeMark, HasNoMark]
  | cons c cs ih =>
    rw [folded?, hasNoMark_cons_iff]
    split_ifs with hs hb hm
    · have hm : looksLikeMark (c :: cs) = false := by
        subst hs
        exact looksLikeMark_cons_of_ne (by decide) (by decide)
      have hb : isRawBreak c = false := by
        subst hs
        decide
      simp [ih, hm, hb]
    · have hm : looksLikeMark (c :: cs) = false := by
        refine looksLikeMark_cons_of_ne ?_ ?_ <;> (rintro rfl; revert hb; decide)
      simp [ih, hm, hb]
    · simp only [Bool.and_eq_true] at hm
      simp [hm.1, hm.2]
    · have hline : start = true → looksLikeMark (c :: cs) = false := by simpa using hm
      rw [Option.isSome_map, ih, and_iff_right hline]
      simp [hb]

end folding

end TaintPolicy.Yaml
