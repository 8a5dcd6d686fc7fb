import TaintPolicy.Proofs.NormalForm

/-!
# Reading what was written

A rule is written in two ways: saved in camel case, and compiled into the entry of a policy in snake
case. Both are one list of fields under either spelling of its keys, and the reader makes the normal
form of the rule of either. Compiled entries hold nothing that a strict reader refuses, apart from a
target that does not fit the rule.
-/

namespace TaintPolicy

section lookups

open Json

theorem find?_fieldWhen (x name : String) (v : Option Json) :
    Fields.find? x (fieldWhen name v) = if name = x then v else none := by
  cases v <;> simp [fieldWhen, Fields.find?]

theorem find?_fieldUnlessEmpty (x name : String) (vs : List Json) :
    Fields.find? x (fieldUnlessEmpty name vs) =
      if name = x ∧ vs ≠ [] then some (arr vs) else none := by
  cases vs <;> simp [fieldUnlessEmpty, Fields.find?]

theorem firstText?_one (v : Json) (a : String) :
    v.firstText? [a] = nonEmpty ((v.get? a).bind text?) := by
  simp only [firstText?, List.findSome?_cons, List.findSome?_nil]
  cases nonEmpty ((v.get? a).bind text?) <;> rfl

theorem firstText?_two (v : Json) (a b : String) :
    v.firstText? [a, b] =
      (nonEmpty ((v.get? a).bind text?)).or (nonEmpty ((v.get? b).bind text?)) := by
  simp only [firstText?, List.findSome?_cons, List.findSome?_nil]
  cases nonEmpty ((v.get? a).bind text?) <;> cases nonEmpty ((v.get? b).bind text?) <;> rfl

theorem firstPresent?_one (v : Json) (a : String) :
    v.firstPresent? [a] = (v.get? a).filter fun w => !w.isNull := by
  simp only [firstPresent?, List.findSome?_cons, List.findSome?_nil]
  cases (v.get? a).filter fun w => !w.isNull <;> rfl

theorem firstPresent?_two (v : Json) (a b : String) :
    v.firstPresent? [a, b] =
      ((v.get? a).filter fun w => !w.isNull).or ((v.get? b).filter fun w => !w.isNull) := by
  simp only [firstPresent?, List.findSome?_cons, List.findSome?_nil]
  cases (v.get? a).filter fun w => !w.isNull <;>
    cases (v.get? b).filter fun w => !w.isNull <;> rfl

@[simp] theorem bind_text?_map_str (s : Option String) : (s.map str).bind text? = s := by
  cases s <;> rfl

@[simp] theorem nonEmpty_bind_text?_map_toJson (c : Option TaintClass) :
    nonEmpty ((c.map TaintClass.toJson).bind text?) = c.map TaintClass.text := by
  cases c with
  | none => rfl
  | some c => exact nonEmpty_of_ne c.text_ne_empty

@[simp] theorem readOptionalClass_map_text (mode : Mode) (c : Option TaintClass) :
    readOptionalClass mode (c.map TaintClass.text) = .ok c := by
  cases c with
  | none => rfl
  | some c => simp [readOptionalClass, readClass]

end lookups

section patterns

theorem readStep_stepToJson (mode : Mode) (c : TaintClass) :
    readStep mode (stepToJson c) = .ok (some c) := by
  have hc : (stepToJson c).firstText? ["class", "Class"] = some c.text := by
    have hn := nonEmpty_bind_text?_map_toJson (some c)
    simp only [firstText?_two, stepToJson, Json.get?_obj, Fields.find?_cons_self]
    exact congrArg (Option.or · _) hn
  simp [readStep, hc, readClass]

theorem firstPresent?_distance (spelling : Spelling) (p : SequencePattern) :
    (Json.obj (("type", .str "sequence") :: p.toFields spelling)).firstPresent?
      ["maxDistance", "max_distance"] = p.maxDistance.map Json.ofWord := by
  have hf : (p.maxDistance.map Json.ofWord).filter (fun w => !w.isNull) =
      p.maxDistance.map Json.ofWord := by
    cases p.maxDistance <;> rfl
  cases spelling <;>
    simp [firstPresent?_two, SequencePattern.toFields, Fields.find?, find?_fieldWhen,
      Spelling.distanceKey, hf]

-- Stated of any value that is read as the word: nothing here may unfold the bounds of a word.
theorem readDistance_of_word? {v w : Json} {n : UInt64} (mode : Mode)
    (hv : v.firstPresent? ["maxDistance", "max_distance"] = some w) (hw : w.word? = some n) :
    readDistance mode v = .ok (some n) := by
  simp only [readDistance, hv, hw]

theorem readDistance_written (mode : Mode) (spelling : Spelling) (p : SequencePattern) :
    readDistance mode (.obj (("type", .str "sequence") :: p.toFields spelling)) =
      .ok p.maxDistance := by
  have hv := firstPresent?_distance spelling p
  cases hm : p.maxDistance with
  | none => rw [readDistance, hv, hm, Option.map_none]
  | some n =>
    rw [hm] at hv
    exact readDistance_of_word? mode hv (Json.word?_ofWord n)

theorem readSequence_written (mode : Mode) (spelling : Spelling) (p : SequencePattern) :
    readSequence mode (.obj (("type", .str "sequence") :: p.toFields spelling)) = .ok (some p) := by
  have hg : (Json.obj (("type", .str "sequence") :: p.toFields spelling)).get? "steps" =
      some (.arr (p.steps.map stepToJson)) := by
    simp [SequencePattern.toFields, Fields.find?]
  have hs : collect (readStep mode) (p.steps.map stepToJson) = .ok p.steps := by
    simpa using collect_map_some id fun c _ => readStep_stepToJson mode c
  simp [readSequence, hg, hs, readDistance_written, Json.items?]

theorem firstText?_session (spelling : Spelling) (p : Predicate) :
    (p.toJson spelling).firstText? ["session_has_class", "sessionHasClass"] =
      p.session.map TaintClass.text := by
  cases spelling <;> simp [firstText?_two, Predicate.toJson, Fields.find?_append,
    find?_fieldWhen, Spelling.sessionKey, Spelling.currentKey]

theorem firstText?_current (spelling : Spelling) (p : Predicate) :
    (p.toJson spelling).firstText? ["current_tool_class", "currentToolClass"] =
      p.current.map TaintClass.text := by
  cases spelling <;> simp [firstText?_two, Predicate.toJson, Fields.find?_append,
    find?_fieldWhen, Spelling.sessionKey, Spelling.currentKey]

theorem readPredicate_toJson (mode : Mode) (spelling : Spelling) (p : Predicate) :
    readPredicate mode (p.toJson spelling) =
      if p.isEmpty then mode.tolerate (.malformedPattern .emptyPredicate) none
      else .ok (some p) := by
  have hn : (p.toJson spelling).isNull = false := rfl
  simp [readPredicate, hn, firstText?_session, firstText?_current]

/-- A branch as it is written: a list of predicates, or nothing. -/
def writtenBranch (spelling : Spelling) (branch : Option (List Predicate)) : Option Json :=
  branch.map fun ps => .arr (ps.map (Predicate.toJson spelling))

theorem readBranch_lenient (spelling : Spelling) (branch : Option (List Predicate)) :
    readBranch .lenient (writtenBranch spelling branch) = .ok (normalBranch branch) := by
  cases branch with
  | none => rfl
  | some ps =>
    have hc : collect (readPredicate .lenient) (ps.map (Predicate.toJson spelling)) =
        .ok (ps.filter fun p => !p.isEmpty) := by
      rw [← List.filterMap_eq_filter]
      refine collect_map _ fun p _ => ?_
      rw [readPredicate_toJson]
      cases h : p.isEmpty <;> simp [Option.guard, h]
    simp [readBranch, writtenBranch, Json.items?, hc, normalBranch_some]

/-- No mode finds a fault in a branch that was written in normal form. -/
theorem readBranch_normalBranch (mode : Mode) (spelling : Spelling)
    (branch : Option (List Predicate)) :
    readBranch mode (writtenBranch spelling (normalBranch branch)) = .ok (normalBranch branch) := by
  cases h : normalBranch branch with
  | none => rfl
  | some ps =>
    obtain ⟨hne, hp⟩ := normalBranch_eq_some h
    have hc : collect (readPredicate mode) (ps.map (Predicate.toJson spelling)) = .ok ps := by
      simpa using collect_map_some id fun p hm => by simp [readPredicate_toJson, hp p hm]
    simp [readBranch, writtenBranch, Json.items?, hc, hne]

/-- A condition as it is written, around two branches that are written already. -/
def writtenLogic (and or : Option Json) : Json :=
  .obj [("type", .str "logic"), ("condition",
    .obj (Json.fieldWhen "AND" and ++ Json.fieldWhen "OR" or))]

theorem Pattern.toJson_logic (p : LogicPattern) :
    (Pattern.logic p).toJson =
      writtenLogic (writtenBranch .camel p.and) (writtenBranch .camel p.or) := rfl

theorem fieldUnlessEmpty_entryBranch (name : String) (branch : Option (List Predicate)) :
    Json.fieldUnlessEmpty name ((entryBranch branch).map (Predicate.toJson .snake)) =
      Json.fieldWhen name (writtenBranch .snake (normalBranch branch)) := by
  rw [← getD_normalBranch]
  cases h : normalBranch branch with
  | none => rfl
  | some ps =>
    cases ps with
    | nil => exact absurd rfl (normalBranch_eq_some h).1
    | cons p ps => rfl

theorem Pattern.toJson_toEntry_logic (p : LogicPattern) :
    (Pattern.logic p).toEntry.toJson =
      writtenLogic (writtenBranch .snake (normalBranch p.and))
        (writtenBranch .snake (normalBranch p.or)) := by
  simp only [Pattern.toEntry, EntryPattern.toJson, fieldUnlessEmpty_entryBranch, writtenLogic]

theorem firstPresent?_branches (spelling : Spelling) (and or : Option (List Predicate)) :
    let condition := Json.obj (Json.fieldWhen "AND" (writtenBranch spelling and) ++
      Json.fieldWhen "OR" (writtenBranch spelling or))
    condition.firstPresent? ["AND", "and"] = writtenBranch spelling and ∧
      condition.firstPresent? ["OR", "or"] = writtenBranch spelling or := by
  have hf : ∀ branch, (writtenBranch spelling branch).filter (fun w => !w.isNull) =
      writtenBranch spelling branch := by
    intro branch
    cases branch <;> rfl
  simp [firstPresent?_two, Fields.find?_append, find?_fieldWhen, hf]

/-- Reading a condition reads its two branches, the one that all hold first. -/
theorem readPattern_writtenLogic {mode : Mode} {spelling : Spelling}
    {and or and' or' : Option (List Predicate)}
    (hand : readBranch mode (writtenBranch spelling and) = .ok and')
    (hor : readBranch mode (writtenBranch spelling or) = .ok or') :
    readPattern mode (writtenLogic (writtenBranch spelling and) (writtenBranch spelling or)) =
      .ok (some (.logic ⟨and', or'⟩)) := by
  obtain ⟨ha, ho⟩ := firstPresent?_branches spelling and or
  have hc : readCondition mode
      (writtenLogic (writtenBranch spelling and) (writtenBranch spelling or)) =
      .ok (some (.obj (Json.fieldWhen "AND" (writtenBranch spelling and) ++
        Json.fieldWhen "OR" (writtenBranch spelling or)))) := by
    simp [readCondition, writtenLogic, firstPresent?_one, Fields.find?, Option.filter_some,
      Json.isNull, Json.isObject]
  have hl : readLogic mode
      (writtenLogic (writtenBranch spelling and) (writtenBranch spelling or)) =
      .ok (some ⟨and', or'⟩) := by
    have ho' : (writtenLogic (writtenBranch spelling and) (writtenBranch spelling or)).isObject =
        true := rfl
    simp [readLogic, ho', hc, ha, ho, hand, hor]
  have ht : ((writtenLogic (writtenBranch spelling and) (writtenBranch spelling or)).get?
      "type").bind Json.text? = some "logic" := rfl
  simp [readPattern, ht, hl]

theorem readPattern_sequence (mode : Mode) (spelling : Spelling) (p : SequencePattern) :
    readPattern mode (.obj (("type", .str "sequence") :: p.toFields spelling)) =
      .ok (some (.sequence p)) := by
  simp [readPattern, readSequence_written]

/-- Every mode reads the entry of a pattern as its normal form. -/
theorem readPattern_toEntry (mode : Mode) (p : Pattern) :
    readPattern mode p.toEntry.toJson = .ok (some p.normal) := by
  cases p with
  | sequence p => exact readPattern_sequence mode .snake p
  | logic p =>
    rw [Pattern.toJson_toEntry_logic]
    exact readPattern_writtenLogic (readBranch_normalBranch mode .snake p.and)
      (readBranch_normalBranch mode .snake p.or)

/-- A saved pattern may hold predicates without a class, which only lenient reading drops. -/
theorem readPattern_toJson (p : Pattern) : readPattern .lenient p.toJson = .ok (some p.normal) := by
  cases p with
  | sequence p => exact readPattern_sequence .lenient .camel p
  | logic p =>
    rw [Pattern.toJson_logic]
    exact readPattern_writtenLogic (readBranch_lenient .camel p.and) (readBranch_lenient .camel p.or)

end patterns

section rules

/-- The fields of a rule in either spelling, around a pattern that is written already. -/
def Rule.writtenFields (spelling : Spelling) (r : Rule) (pattern : Option Json) : Fields Json :=
  ("action", r.action.toJson) ::
    (Json.fieldWhen "tool" (r.tool.map .str) ++
      (Json.fieldWhen spelling.classKey (r.toolClass.map TaintClass.toJson) ++
      (Json.fieldWhen "tag" (r.tag.map .str) ++
      (Json.fieldUnlessEmpty spelling.tagsKey (r.forbiddenTags.map .str) ++
      (Json.fieldWhen "error" (r.error.map .str) ++
      Json.fieldWhen "pattern" pattern)))))

theorem Rule.toFields_eq_written (r : Rule) :
    r.toFields = r.writtenFields .camel (r.pattern.map Pattern.toJson) := rfl

/-- An entry is the rule without its empty texts in snake case. -/
theorem Rule.toFields_toEntry (r : Rule) :
    r.toEntry.toFields =
      Rule.writtenFields .snake
        { r with tool := nonEmpty r.tool, tag := nonEmpty r.tag, error := nonEmpty r.error }
        (r.pattern.map fun p => p.toEntry.toJson) := by
  simp only [Entry.toFields, Rule.toEntry, writtenFields, Option.map_map]
  rfl

variable (mode : Mode) (spelling : Spelling) (r : Rule) (pattern : Option Json)

theorem readAction_written :
    readAction mode (.obj (r.writtenFields spelling pattern)) = .ok (some r.action) := by
  have ht : (Json.obj (r.writtenFields spelling pattern)).firstText? ["action"] =
      some r.action.text := by
    simpa [firstText?_one, Rule.writtenFields, TaintAction.toJson] using
      nonEmpty_of_ne r.action.text_ne_empty
  simp [readAction, ht]

theorem keepTexts_map_str (ss : List String) : keepTexts (ss.map .str) = ss.filter (· ≠ "") := by
  rw [keepTexts, List.filterMap_map, ← List.filterMap_eq_filter]
  rfl

theorem firstPresent?_tags :
    (Json.obj (r.writtenFields spelling pattern)).firstPresent? ["forbidden_tags", "forbiddenTags"] =
      if r.forbiddenTags = [] then none else some (.arr (r.forbiddenTags.map .str)) := by
  by_cases h : r.forbiddenTags = [] <;> cases spelling <;>
    simp [firstPresent?_two, Rule.writtenFields, Fields.find?, Fields.find?_append,
      find?_fieldWhen, find?_fieldUnlessEmpty, Spelling.classKey, Spelling.tagsKey, h,
      Option.filter_some, Json.isNull]

theorem readTags_written :
    readTags mode (.obj (r.writtenFields spelling pattern)) =
      .ok (r.forbiddenTags.filter (· ≠ "")) := by
  rw [readTags, firstPresent?_tags]
  by_cases h : r.forbiddenTags = []
  · rw [if_pos h, h]
    rfl
  · rw [if_neg h, ← keepTexts_map_str]
    rfl

theorem firstText?_written :
    let v := Json.obj (r.writtenFields spelling pattern)
    v.firstText? ["tool"] = nonEmpty r.tool ∧ v.firstText? ["tag"] = nonEmpty r.tag ∧
      v.firstText? ["error"] = nonEmpty r.error ∧
      v.firstText? ["tool_class", "toolClass"] = r.toolClass.map TaintClass.text ∧
      v.firstText? ["id"] = none ∧ v.firstText? ["sourceTemplate", "source_template"] = none := by
  cases spelling <;> refine ⟨?_, ?_, ?_, ?_, ?_, ?_⟩ <;>
    simp [firstText?_one, firstText?_two, Rule.writtenFields, Fields.find?, Fields.find?_append,
      find?_fieldWhen, find?_fieldUnlessEmpty, Spelling.classKey, Spelling.tagsKey]

theorem firstPresent?_pattern (h : pattern.filter (fun w => !w.isNull) = pattern) :
    (Json.obj (r.writtenFields spelling pattern)).firstPresent? ["pattern"] = pattern := by
  cases spelling <;>
    simp [firstPresent?_one, Rule.writtenFields, Fields.find?, Fields.find?_append,
      find?_fieldWhen, find?_fieldUnlessEmpty, Spelling.classKey, Spelling.tagsKey, h]

theorem checkTarget_lenient : checkTarget .lenient r = .ok () := by
  rw [checkTarget]
  cases r.targetDefect? <;> rfl

theorem checkTarget_normal : checkTarget mode r.normal = checkTarget mode r := by
  rw [checkTarget, Rule.targetDefect?_normal, checkTarget]

/-- A written rule is read as its normal form, as far as its pattern is and its target fits. -/
theorem readRule_written (write : Pattern → Json) (hn : ∀ p, (write p).isNull = false)
    (hp : ∀ p, readPattern mode (write p) = .ok (some p.normal)) :
    readRule mode (.obj (r.writtenFields spelling (r.pattern.map write))) =
      (checkTarget mode r).map fun _ => some ⟨r.normal, none, none⟩ := by
  have hw : (r.pattern.map write).filter (fun w => !w.isNull) = r.pattern.map write := by
    cases r.pattern <;> simp [Option.filter_some, hn]
  have hr : readRulePattern mode (.obj (r.writtenFields spelling (r.pattern.map write))) =
      .ok (r.pattern.map Pattern.normal) := by
    rw [readRulePattern, firstPresent?_pattern spelling r _ hw]
    cases r.pattern with
    | none => rfl
    | some p => exact hp p
  obtain ⟨htool, htag, herror, hclass, hid, hsource⟩ :=
    firstText?_written spelling r (r.pattern.map write)
  have ho : (Json.obj (r.writtenFields spelling (r.pattern.map write))).isObject = true := rfl
  have hm : ∀ check : Except Fault Unit,
      (check >>= fun _ => Except.ok (some ⟨r.normal, none, none⟩)) =
        check.map fun _ => some (ReadRule.mk r.normal none none) := by
    intro check
    cases check <;> rfl
  rw [← checkTarget_normal, ← hm]
  simp only [readRule, ho, if_true, readAction_written, ok_bind, hclass, readOptionalClass_map_text,
    readTags_written, hr, htool, htag, herror, hid, hsource, Rule.normal]

theorem readRule_toEntry :
    readRule mode r.toEntry.toJson =
      (checkTarget mode r).map fun _ => some ⟨r.normal, none, none⟩ := by
  let kept : Rule :=
    { r with tool := nonEmpty r.tool, tag := nonEmpty r.tag, error := nonEmpty r.error }
  have hk : kept.normal = r.normal := by simp only [kept, Rule.normal, nonEmpty_nonEmpty]
  have hc : checkTarget mode kept = checkTarget mode r := by
    rw [← checkTarget_normal, hk, checkTarget_normal]
  have hn : ∀ p : Pattern, p.toEntry.toJson.isNull = false := fun p => by cases p <;> rfl
  have h := readRule_written mode .snake kept (fun p => p.toEntry.toJson) hn
    (readPattern_toEntry mode)
  rw [hk, hc] at h
  rw [Entry.toJson, Rule.toFields_toEntry]
  exact h

/-- All that strict reading can find fault with in an entry is the target of its rule. -/
theorem readRule_strict_toEntry :
    readRule .strict r.toEntry.toJson =
      match r.targetDefect? with
      | none => .ok (some ⟨r.normal, none, none⟩)
      | some defect => .error (.invalidTarget defect) := by
  rw [readRule_toEntry, checkTarget]
  cases r.targetDefect? <;> rfl

theorem readRule_lenient_toEntry :
    readRule .lenient r.toEntry.toJson = .ok (some ⟨r.normal, none, none⟩) := by
  rw [readRule_toEntry, checkTarget_lenient, map_ok]

theorem readRule_toJson :
    readRule .lenient r.toJson = .ok (some ⟨r.normal, none, none⟩) := by
  have hn : ∀ p : Pattern, p.toJson.isNull = false := fun p => by cases p <;> rfl
  have h := readRule_written .lenient .camel r Pattern.toJson hn readPattern_toJson
  rw [Rule.toJson, Rule.toFields_eq_written, h, checkTarget_lenient, map_ok]

end rules

/-- What a reader in this mode can have made: a rule in normal form whose target the mode accepts. -/
structure Rule.IsReadable (mode : Mode) (r : Rule) : Prop where
  normal_eq : r.normal = r
  target_ok : checkTarget mode r = .ok ()

theorem isReadable_of_readRule {mode : Mode} {v : Json} {read : ReadRule}
    (h : readRule mode v = .ok (some read)) : read.rule.IsReadable mode := by
  obtain ⟨-, -, -, -, hd, -⟩ := readRule_eq_ok h
  exact ⟨normal_of_readRule h, hd⟩

/-- Reading undoes both ways of writing a rule, up to the normal form that all rules that were read
have. Strict reading of an entry finds a fault only in the target of the rule. -/
theorem reading_undoes_writing :
    (∀ r : Rule,
      readRule .lenient r.toEntry.toJson = .ok (some ⟨r.normal, none, none⟩) ∧
      readRule .lenient r.toJson = .ok (some ⟨r.normal, none, none⟩) ∧
      readRule .strict r.toEntry.toJson =
        match r.targetDefect? with
        | none => .ok (some ⟨r.normal, none, none⟩)
        | some defect => .error (.invalidTarget defect)) ∧
    ∀ mode v read, readRule mode v = .ok (some read) →
      read.rule.normal = read.rule ∧
      readRule .strict read.rule.toEntry.toJson =
        match read.rule.targetDefect? with
        | none => .ok (some ⟨read.rule, none, none⟩)
        | some defect => .error (.invalidTarget defect) := by
  refine ⟨fun r => ⟨readRule_lenient_toEntry r, readRule_toJson r, readRule_strict_toEntry r⟩,
    fun mode v read h => ?_⟩
  have hn := normal_of_readRule h
  refine ⟨hn, ?_⟩
  rw [readRule_strict_toEntry, hn]

/-- A rule in an older spelling, with an empty text and a `null` among its predicates. -/
def aliasedRule : Json :=
  .obj [("action", .str "BLOCK_CURRENT"), ("tag", .str ""), ("pattern",
    .obj [("type", .str "logic"), ("condition",
      .obj [("and", .arr [.null, .obj [("sessionHasClass", .str "SAFE_READ")]])])])]

def plainRule : Rule := .forPattern .blockCurrent (.logic ⟨some [⟨some .safeRead, none⟩], none⟩)

theorem reading_undoes_writing_aliased :
    readRule .lenient aliasedRule = .ok (some ⟨plainRule, none, none⟩) ∧
    plainRule.normal = plainRule ∧
    readRule .strict plainRule.toEntry.toJson = .ok (some ⟨plainRule, none, none⟩) :=
  ⟨rfl, reading_undoes_writing.2 .lenient aliasedRule ⟨plainRule, none, none⟩ rfl⟩

end TaintPolicy
