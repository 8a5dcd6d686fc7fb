import TaintPolicy.Proofs.FlowScan

/-!
# Tokens of written JSON

How a reader of YAML cuts JSON in its pretty layout into tokens. Every bracket, comma and number is
one token in any place. A text in quotes is one token unless a line of it looks like the mark of a
document, where the whole text is refused; a name is taken for a key if its colon follows on the
same line and near enough.
-/

namespace TaintPolicy.Yaml

/-- The brackets that open a collection, with their tokens. -/
inductive Opens : Char → Token → Prop
  | list : Opens '[' .flowSequenceStart
  | object : Opens '{' .flowMappingStart

/-- The brackets that close a collection, with their tokens. -/
inductive Closes : Char → Token → Prop
  | list : Closes ']' .flowSequenceEnd
  | object : Closes '}' .flowMappingEnd

/-- What follows a value inside a collection: a comma or a bracket, maybe after a gap. -/
def Closed (rest : List Char) : Prop :=
  ∃ c cs, rest.dropWhile isFiller = c :: cs ∧ (c = ',' ∨ ∃ token, Closes c token)

/-- No line of a text in quotes looks like the mark of a document. -/
def Unmarked (cs : List Char) : Prop := (folded? false .none cs).isSome = true

/-- What is read of a text in quotes. -/
def refolded (cs : List Char) : String := String.ofList ((folded? false .none cs).getD [])

/-- The name of a field is a key if its colon is found on its line and near enough. -/
def fitsKey (cs : List Char) : Bool := !cs.any isRawBreak && (shown cs).length ≤ 1022

/-- The tokens of a name and its colon. -/
def nameTokens (cs : List Char) : List Token :=
  if fitsKey cs then [.key, .scalar (refolded cs) false, .value]
  else [.scalar (refolded cs) false, .value]

theorem two_le_length_nameTokens (cs : List Char) : 2 ≤ (nameTokens cs).length := by
  rw [nameTokens]
  split <;> simp

section numbers

variable {c : Char} {cs ds rest done : List Char} {gap : Gap} {m : Mark} {indent : Int}

theorem readPlain_digits (hd : ∀ c ∈ ds, c.isDigit = true) :
    readPlain true indent .none done m (ds ++ rest) =
      readPlain true indent .none (ds.reverse ++ done) (m.past ds) rest := by
  induction ds generalizing done m with
  | nil => rfl
  | cons c ds ih =>
    obtain ⟨hc, hds⟩ := List.forall_mem_cons.mp hd
    have hne : ∀ d, d.isDigit = false → c ≠ d := fun d => isDigit_ne hc
    have hb : isBlank c = false := by simp [isBlank, hne ' ' (by decide), hne '\t' (by decide)]
    have hl : isLineBreak c = false := isLineBreak_of_isGraphic (isGraphic_of_isDigit hc)
    have he : endsFlowScalar c = false := by
      simp [endsFlowScalar, hne ',' (by decide), hne '[' (by decide), hne ']' (by decide),
        hne '{' (by decide), hne '}' (by decide)]
    rw [List.cons_append, readPlain]
    simp only [hb, hl, he, Gap.isNone, hne ':' (by decide), decide_false, Bool.not_true,
      Bool.false_and, Bool.and_false, Bool.or_false, Bool.false_eq_true, if_false]
    rw [ih hds]
    simp [Gap.text, Mark.past]

theorem readPlain_mark (hc : endsFlowScalar c = true) (gap : Gap) (m : Mark) :
    readPlain true indent gap done m (c :: cs) = some ((done.reverse, gap), m, c :: cs) := by
  have hd : atDocumentMark m (c :: cs) = false := by
    refine atDocumentMark_of_ne ?_ ?_ <;> (rintro rfl; revert hc; decide)
  simp only [endsFlowScalar, Bool.or_eq_true, decide_eq_true_eq] at hc
  rcases hc with (((rfl | rfl) | rfl) | rfl) | rfl <;>
    simp [readPlain, isBlank, isLineBreak, endsFlowScalar, hd]

/-- A plain text ends before the mark that follows it, with the gap between taken along. -/
theorem readPlain_closed (hr : rest.dropWhile isFiller = c :: cs) (hc : endsFlowScalar c = true)
    (gap : Gap) (m : Mark) :
    ∃ gap' m', readPlain true indent gap done m rest = some ((done.reverse, gap'), m', c :: cs) := by
  induction rest generalizing gap m with
  | nil => cases hr
  | cons d rest ih =>
    by_cases hd : isFiller d = true
    · rw [List.dropWhile_cons_of_pos hd] at hr
      rcases isFiller_iff.mp hd with rfl | rfl
      · obtain ⟨gap', m', he⟩ := ih hr (gap.addBlank ' ') (m.next ' ')
        exact ⟨gap', m', by rw [readPlain]; simpa [isBlank] using he⟩
      · obtain ⟨gap', m', he⟩ := ih hr (gap.addBreak '\n') (m.next '\n')
        exact ⟨gap', m', by rw [readPlain]; simpa [isBlank, isLineBreak] using he⟩
    · rw [List.dropWhile_cons_of_neg hd] at hr
      rw [hr]
      exact ⟨gap, m, readPlain_mark hc gap m⟩

theorem readPlain_number (hd : ∀ c ∈ ds, c.isDigit = true) (hr : rest.dropWhile isFiller = c :: cs)
    (hc : endsFlowScalar c = true) (indent : Int) (m : Mark) :
    ∃ gap m', readPlain true indent .none [] m (ds ++ rest) = some ((ds, gap), m', c :: cs) := by
  rw [readPlain_digits hd, List.append_nil]
  obtain ⟨gap, m', he⟩ := readPlain_closed hr hc .none (m.past ds)
  rw [List.reverse_reverse] at he
  exact ⟨gap, m', he⟩

end numbers

namespace Scan

section marks

variable {s : Scan} {key : Bool} {depth : Nat} {c : Char} {cs : List Char} {ts : List Token}
  {token : Token}

theorem next_of_opens (h : Opens c token) : s.next c cs = s.openFlow token := by
  have hm : atDocumentMark s.mark (c :: cs) = false := by
    cases h <;> exact atDocumentMark_of_ne (by decide) (by decide)
  cases h <;> simp [next, hm]

theorem next_of_closes (h : Closes c token) : s.next c cs = s.closeFlow token := by
  have hm : atDocumentMark s.mark (c :: cs) = false := by
    cases h <;> exact atDocumentMark_of_ne (by decide) (by decide)
  cases h <;> simp [next, hm]

theorem Stands.emit (h : Stands s key depth cs ts) (token : Token) :
    Stands (s.emit token) key depth cs (token :: ts) where
  calm := ⟨h.calm.columns, h.calm.keyStart, h.calm.outer⟩
  rest := h.rest
  keyAllowed := h.keyAllowed
  depth := h.depth
  reversed := congrArg (token :: ·) h.reversed
  count := congrArg (· + 1) h.count

theorem Stands.skip (h : Stands s key depth (c :: cs) ts) (hr : s.rest = c :: cs) :
    Stands (s.skip 1) key depth cs ts where
  calm := ⟨h.calm.columns, h.calm.keyStart, h.calm.outer⟩
  rest := by rw [Scan.skip, hr, List.drop_one, List.tail_cons]
  keyAllowed := h.keyAllowed
  depth := h.depth
  reversed := h.reversed
  count := h.count

/-- A mark of one character is one token, once the state is made ready for it. -/
theorem Stands.steps_mark {key' : Bool} {depth' : Nat} {ts' : List Token} {t : Scan}
    (h : Stands s key depth (c :: cs) ts) (hc : isTokenStart c = true)
    (hn : s.arrived.next c cs = some ((t.skip 1).emit token)) (hr : t.rest = s.arrived.rest)
    (ht : Stands t key' depth' (c :: cs) ts') :
    ∃ u, Steps s u ∧ Stands u key' depth' cs (token :: ts') := by
  have hrest : t.rest = c :: cs := hr.trans (h.arrived_rest hc)
  refine ⟨_, h.steps hc hn ?_, (ht.skip hrest).emit token⟩
  show (t.rest.drop 1).length ≤ cs.length
  rw [hrest]
  exact Nat.le_refl cs.length

theorem Stands.opens (h : Stands s key depth (c :: cs) ts) (hb : Opens c token) :
    ∃ t, Steps s t ∧ Stands t true (depth + 1) cs (token :: ts) := by
  have hc : isTokenStart c = true := by cases hb <;> rfl
  have ha := h.arrived hc
  have hn : s.arrived.next c cs = _ := next_of_opens hb
  rw [openFlow, ha.calm.startKey, Option.bind_eq_bind, Option.bind_some] at hn
  have hin : Stands { s.arrived with
      keyStart := none
      outer := s.arrived.keyStartHere :: s.arrived.outer
      keyAllowed := true } true (depth + 1) (c :: cs) ts := { ha with
    calm := ⟨ha.calm.columns, by simp, List.forall_mem_cons.mpr ⟨ha.calm.keyStartHere, ha.calm.outer⟩⟩
    keyAllowed := fun _ => rfl
    depth := congrArg (· + 1) ha.depth }
  exact h.steps_mark hc hn rfl hin

theorem Stands.closes (h : Stands s key (depth + 1) (c :: cs) ts) (hb : Closes c token) :
    ∃ t, Steps s t ∧ Stands t false depth cs (token :: ts) := by
  have hc : isTokenStart c = true := by cases hb <;> rfl
  have ha := h.arrived hc
  have hn : s.arrived.next c cs = _ := next_of_closes hb
  rw [closeFlow, ha.calm.dropKey, Option.bind_eq_bind, Option.bind_some] at hn
  obtain ⟨o, os, ho⟩ := List.exists_cons_of_length_eq_add_one ha.depth
  obtain ⟨hk, hos⟩ := List.forall_mem_cons.mp (ho ▸ ha.calm.outer)
  have hlen := ha.depth
  rw [ho, List.length_cons, Nat.add_right_cancel_iff] at hlen
  have hout : Stands { s.arrived with
      keyStart := s.arrived.outer.head?.join
      outer := s.arrived.outer.tail
      keyAllowed := false } false depth (c :: cs) ts := { ha with
    calm := ⟨ha.calm.columns, by simpa [ho] using hk, by simpa [ho] using hos⟩
    keyAllowed := fun hk => by cases hk
    depth := by simp [ho, hlen] }
  exact h.steps_mark hc hn rfl hout

theorem Stands.comma (h : Stands s key depth (',' :: cs) ts) :
    ∃ t, Steps s t ∧ Stands t true depth cs (.flowEntry :: ts) := by
  have hc : isTokenStart ',' = true := rfl
  have ha := h.arrived hc
  have hm : atDocumentMark s.arrived.mark (',' :: cs) = false :=
    atDocumentMark_of_ne (by decide) (by decide)
  have hn : s.arrived.next ',' cs = s.arrived.flowEntry := by simp [next, hm]
  rw [flowEntry, ha.calm.dropKey, Option.bind_eq_bind, Option.bind_some] at hn
  have hin : Stands { s.arrived with keyStart := none, keyAllowed := true } true depth
      (',' :: cs) ts := { ha with
    calm := ⟨ha.calm.columns, by simp, ha.calm.outer⟩
    keyAllowed := fun _ => rfl }
  exact h.steps_mark hc hn rfl hin

end marks

section texts

variable {s : Scan} {key : Bool} {depth : Nat} {k cs : List Char} {ts : List Token}

/-- The state after a text in quotes. -/
def pastText (k cs : List Char) (s : Scan) : Scan :=
  emit (.scalar (refolded k) false) { s with
    rest := cs
    mark := ((s.mark.next '"').past (shown k)).next '"'
    keyAllowed := false
    keyStart := s.keyStartHere }

theorem IsCalm.next_quoted (h : s.IsCalm) (hr : s.rest = '"' :: (shown k ++ '"' :: cs)) :
    s.next '"' (shown k ++ '"' :: cs) = (folded? false .none k).map fun _ => s.pastText k cs := by
  have hm : atDocumentMark s.mark ('"' :: (shown k ++ '"' :: cs)) = false :=
    atDocumentMark_of_ne (by decide) (by decide)
  have hq : s.next '"' (shown k ++ '"' :: cs) = s.quoted false := by simp [next, hm]
  have hc : ((s.mark.next '"').column = 0) = False := by simp [column_next, isLineBreak]
  rw [hq, Scan.quoted, h.startKey, Option.bind_eq_bind, Option.bind_some]
  simp only [Scan.skip, hr, List.drop_one, List.tail_cons, List.take_succ_cons, List.take_zero,
    Mark.past, List.foldl_cons, List.foldl_nil, readQuoted_shown, hc, decide_false]
  rw [Scan.pastText, refolded]
  cases folded? false .none k <;> rfl

theorem Stands.pastText (h : Stands s key depth ('"' :: (shown k ++ '"' :: cs)) ts) :
    Stands (s.pastText k cs) false depth cs (.scalar (refolded k) false :: ts) :=
  Stands.emit (s := { s with
      rest := cs
      mark := ((s.mark.next '"').past (shown k)).next '"'
      keyAllowed := false
      keyStart := s.keyStartHere })
    { h with
      calm := ⟨h.calm.columns, h.calm.keyStartHere, h.calm.outer⟩
      rest := rfl
      keyAllowed := fun hk => by cases hk } _

/-- Only a document mark keeps a text in quotes from being read. -/
theorem Stands.quote (h : Stands s key depth ('"' :: (shown k ++ '"' :: cs)) ts) :
    Leads s (Unmarked k) (· = s.arrived.pastText k cs) := by
  have hc : isTokenStart '"' = true := rfl
  have hn := (h.arrived hc).calm.next_quoted (h.arrived_rest hc)
  cases hf : folded? false .none k with
  | none =>
    rw [hf, Option.map_none] at hn
    exact ⟨fun hu => by simp [Unmarked, hf] at hu, fun _ => h.fails hc hn⟩
  | some text =>
    rw [hf, Option.map_some] at hn
    refine ⟨fun _ => ⟨_, h.steps hc hn ?_, rfl⟩, fun hu => by simp [Unmarked, hf] at hu⟩
    simp only [Scan.pastText, Scan.emit, List.length_append, List.length_cons]
    omega

theorem Stands.text (h : Stands s key depth ('"' :: (shown k ++ '"' :: cs)) ts) :
    Leads s (Unmarked k) fun t => Stands t false depth cs (.scalar (refolded k) false :: ts) := by
  refine h.quote.congr Iff.rfl fun t ht => ?_
  rw [ht]
  exact (h.arrived rfl).pastText

theorem countP_isLineBreak_shown (k : List Char) :
    (shown k).countP isLineBreak = k.countP isRawBreak := by
  induction k with
  | nil => rfl
  | cons c k ih =>
    rw [shown_cons, List.countP_append, ih, List.countP_cons, Nat.add_comm]
    congr 1
    by_cases hb : isRawBreak c = true
    · obtain ⟨he, hc⟩ := (shown_cases c).resolve_right fun h => by simp [hb] at h
      simp [he, isLineBreak_unifyBreak hc, hb]
    · rw [Bool.not_eq_true] at hb
      have hl : ((Json.escaped c).map unifyBreak).countP isLineBreak = 0 :=
        List.countP_eq_zero.mpr fun d hd => by simp [isLineBreak_of_mem_escaped hb d hd]
      rw [hl, hb]
      rfl

/-- From the colon behind a name its start is in reach if the name fits. -/
theorem inReach_past_shown (m : Mark) (k : List Char) (position : Nat) :
    inReach (((m.next '"').past (shown k)).next '"') ⟨position, false, m⟩ = fitsKey k := by
  have hq : ∀ m : Mark, m.next '"' = ⟨m.index + 1, m.line, m.column + 1⟩ := fun m => rfl
  have hl : m.line = m.line + k.countP isRawBreak ↔ k.any isRawBreak = false := by
    rw [Nat.left_eq_add, List.countP_eq_zero, List.any_eq_false]
  have hi : m.index + 1 + (shown k).length + 1 ≤ m.index + 1024 ↔ (shown k).length ≤ 1022 := by
    omega
  simp only [inReach, hq, line_past, index_past, countP_isLineBreak_shown, fitsKey, hl, hi,
    Bool.decide_eq_false]

theorem Stands.inFlow (h : Stands s key (depth + 1) cs ts) : s.inFlow = true := by
  obtain ⟨o, os, ho⟩ := List.exists_cons_of_length_eq_add_one h.depth
  rw [Scan.inFlow, ho]
  rfl

theorem Stands.next_colon (h : Stands s key (depth + 1) (':' :: cs) ts) :
    s.next ':' cs = s.value := by
  have hm : atDocumentMark s.mark (':' :: cs) = false :=
    atDocumentMark_of_ne (by decide) (by decide)
  simp [next, hm, h.inFlow]

/-- The colon of a key puts the mark for a key in front of its name. -/
theorem Stands.colon {name : Token} (h : Stands s key (depth + 1) (':' :: cs) (name :: ts))
    {m : Mark} (hk : s.arrived.keyStart = some ⟨ts.length, false, m⟩) :
    ∃ t, Steps s t ∧ Stands t false (depth + 1) cs (.value :: name :: .key :: ts) := by
  have hc : isTokenStart ':' = true := rfl
  have ha := h.arrived hc
  have hn := ha.next_colon
  have hlater : s.arrived.count - ts.length = 1 := by
    rw [ha.count, List.length_cons]
    omega
  have hin : Stands { (s.arrived.emitAt ts.length .key) with
      keyStart := none
      keyAllowed := false } false (depth + 1) (':' :: cs) (name :: .key :: ts) := {
    calm := ⟨ha.calm.columns, by simp, ha.calm.outer⟩
    rest := ha.rest
    keyAllowed := fun hk => by cases hk
    depth := ha.depth
    reversed := by simp [emitAt, hlater, ha.reversed]
    count := by simp [emitAt, ha.count] }
  have hopen : openBlock m.column ts.length .mappingStart (s.arrived.emitAt ts.length .key) =
      s.arrived.emitAt ts.length .key := by
    have hf : (s.arrived.emitAt ts.length .key).inFlow = true := ha.inFlow
    simp [openBlock, hf]
  simp only [value, hk, hopen] at hn
  exact h.steps_mark hc hn rfl hin

/-- A colon without a key start is only a mark for a value. -/
theorem Stands.colon_alone (h : Stands s key (depth + 1) (':' :: cs) ts)
    (hk : s.arrived.keyStart = none) :
    ∃ t, Steps s t ∧ Stands t false (depth + 1) cs (.value :: ts) := by
  have hc : isTokenStart ':' = true := rfl
  have ha := h.arrived hc
  have hn := ha.next_colon
  rw [value, hk, openAtMark, if_pos ha.inFlow, Option.bind_eq_bind, Option.bind_some] at hn
  have hin : Stands { s.arrived with keyAllowed := !s.arrived.inFlow } false (depth + 1)
      (':' :: cs) ts := { ha with
    calm := ⟨ha.calm.columns, ha.calm.keyStart, ha.calm.outer⟩
    keyAllowed := fun hk => by cases hk }
  exact h.steps_mark hc hn rfl hin

/-- A name starts a key unless the colon behind it is out of reach. -/
theorem keyStart_pastText {position : Nat} (h : s.keyStartHere = some ⟨position, false, s.mark⟩)
    (k cs : List Char) :
    (s.pastText k (':' :: cs)).arrived.keyStart =
      if fitsKey k then some ⟨position, false, s.mark⟩ else none := by
  have hgap : ∀ flow m, skipGap flow false false m (':' :: cs) = (false, m, ':' :: cs) :=
    fun flow m => skipGap_start rfl flow false m
  simp only [Scan.arrived, Scan.pastText, Scan.emit, hgap, h, Option.filter_some,
    inReach_past_shown]

/-- A name with its colon, where a key may start. -/
theorem Stands.name (h : Stands s true (depth + 1) ('"' :: (shown k ++ '"' :: ':' :: cs)) ts) :
    Leads s (Unmarked k) fun t => Stands t false (depth + 1) cs ((nameTokens k).reverse ++ ts) := by
  have ha := h.arrived rfl
  have ht := ha.pastText
  have hhere : s.arrived.keyStartHere = some ⟨ts.length, false, s.arrived.mark⟩ := by
    rw [keyStartHere, if_pos (ha.keyAllowed rfl), ha.count]
  have hstart := keyStart_pastText hhere k cs
  refine h.quote.then_steps fun t he => ?_
  rw [he]
  by_cases hfit : fitsKey k = true
  · rw [if_pos hfit] at hstart
    simpa [nameTokens, hfit] using ht.colon hstart
  · rw [if_neg hfit] at hstart
    simpa [nameTokens, hfit] using ht.colon_alone hstart

end texts

section counts

variable {s : Scan} {key : Bool} {depth : Nat} {c : Char} {cs ds rest : List Char} {ts : List Token}
  {gap : Gap} {m : Mark}

theorem next_digit (hc : c.isDigit = true) : s.next c cs = s.plain := by
  have hne : ∀ d, d.isDigit = false → c ≠ d := fun d => isDigit_ne hc
  have hm : atDocumentMark s.mark (c :: cs) = false :=
    atDocumentMark_of_ne (hne '-' (by decide)) (hne '.' (by decide))
  simp [next, hm, isBlank, isReserved, hne ' ' (by decide), hne '\t' (by decide),
    hne '%' (by decide), hne '@' (by decide), hne '\x60' (by decide), hne '#' (by decide),
    hne '[' (by decide), hne '{' (by decide), hne ']' (by decide), hne '}' (by decide),
    hne ',' (by decide), hne '-' (by decide), hne '?' (by decide), hne ':' (by decide),
    hne '*' (by decide), hne '&' (by decide), hne '!' (by decide), hne '|' (by decide),
    hne '>' (by decide), hne '\'' (by decide), hne '"' (by decide)]

theorem IsCalm.plain_eq {text : List Char} (h : s.IsCalm) (hf : s.inFlow = true)
    (hr : readPlain true (s.indent + 1) .none [] s.mark s.rest = some ((text, gap), m, cs)) :
    s.plain = some (emit (.scalar (String.ofList text) true) { s with
      mark := m
      rest := cs
      keyAllowed := gap.isLines
      keyStart := s.keyStartHere }) := by
  rw [plain, h.startKey, Option.bind_eq_bind, Option.bind_some]
  show (readPlain s.inFlow (s.indent + 1) .none [] s.mark s.rest).bind _ = _
  rw [hf, hr]
  rfl

/-- Digits inside a collection are one token. -/
theorem Stands.digits (h : Stands s key (depth + 1) (c :: (ds ++ rest)) ts)
    (hd : ∀ d ∈ c :: ds, d.isDigit = true) (hr : Closed rest) :
    ∃ t, Steps s t ∧
      Stands t false (depth + 1) rest (.scalar (String.ofList (c :: ds)) true :: ts) := by
  have hdc := hd c List.mem_cons_self
  have hc := isTokenStart_of_isDigit hdc
  have ha := h.arrived hc
  obtain ⟨e, es, hrest, he⟩ := hr
  have hend : endsFlowScalar e = true ∧ isFiller e = false := by
    rcases he with rfl | ⟨token, hclose⟩
    · exact ⟨rfl, rfl⟩
    · cases hclose <;> exact ⟨rfl, rfl⟩
  obtain ⟨gap, m, hread⟩ := readPlain_number hd hrest hend.1 (s.arrived.indent + 1) s.arrived.mark
  rw [List.cons_append, ← h.arrived_rest hc] at hread
  have hn : s.arrived.next c (ds ++ rest) = _ :=
    (next_digit hdc).trans (ha.calm.plain_eq ha.inFlow hread)
  have hlen := (List.dropWhile_sublist isFiller (l := rest)).length_le
  rw [hrest] at hlen
  refine ⟨_, h.steps hc hn ?_, Stands.emit (s := { s.arrived with
      mark := m
      rest := e :: es
      keyAllowed := gap.isLines
      keyStart := s.arrived.keyStartHere })
    { ha with
      calm := ⟨ha.calm.columns, ha.calm.keyStartHere, ha.calm.outer⟩
      rest := ?_
      keyAllowed := fun hk => by cases hk } _⟩
  · rw [List.length_append]
    exact Nat.le_trans hlen (Nat.le_add_left _ _)
  · rw [hrest, List.dropWhile_cons_of_neg (by simp [hend.2])]

end counts

end Scan

end TaintPolicy.Yaml
