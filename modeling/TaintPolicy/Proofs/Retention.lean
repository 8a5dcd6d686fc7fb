import TaintPolicy.Proofs.Strictness
import TaintPolicy.Proofs.NormalForm

/-!
# What strict reading keeps

A strict reader makes one step of each entry of a sequence and one predicate of each entry of a
branch that is not `null`. Texts are another matter: where a text is wanted, it passes over every
value that is none, as a lenient reader does. So a number among the tags is lost without a fault.
So is a value that is no text in the place of a tool, a tag, an error or a class, if the rule is
complete without it. A rule keeps all that was stated of it exactly if texts stand in these places.
-/

namespace TaintPolicy

namespace Json

/-- One of the named fields is there and not `null`. -/
def IsSet (v : Json) (names : List String) : Prop :=
  ∃ name ∈ names, ∃ w, v.get? name = some w ∧ w.isNull = false

/-- One of the named fields is there, not `null` and not an empty text. -/
def IsFilled (v : Json) (names : List String) : Prop :=
  ∃ name ∈ names, ∃ w, v.get? name = some w ∧ w.isNull = false ∧ w.text? ≠ some ""

/-- One of the named fields is a text that is not empty. -/
def HoldsText (v : Json) (names : List String) : Prop :=
  ∃ name ∈ names, ∃ s, s ≠ "" ∧ v.get? name = some (.str s)

end Json

/-- The entries of the list of steps. -/
def stepEntries (v : Json) : List Json := ((v.get? "steps").bind Json.items?).getD []

/-- The value under the first of the names that holds something in the condition. -/
def branchValue? (v : Json) (names : List String) : Option Json :=
  (v.firstPresent? ["condition"]).bind fun c => c.firstPresent? names

/-- The entries of a branch, those that are `null` left out. -/
def branchEntries (v : Json) (names : List String) : List Json :=
  (((branchValue? v names).bind Json.items?).getD []).filter fun e => !e.isNull

/-- There is a step for each entry and a distance if one is set, or a predicate for each entry of a
branch that is not `null`, which stands in the given relation to it. -/
def Pattern.Mirrors (R : Json → Predicate → Prop) (v : Json) : Pattern → Prop
  | .sequence p =>
    p.steps.length = (stepEntries v).length ∧
      (v.IsSet ["maxDistance", "max_distance"] → p.maxDistance.isSome = true)
  | .logic p =>
    List.Forall₂ R (branchEntries v ["AND", "and"]) (p.and.getD []) ∧
      List.Forall₂ R (branchEntries v ["OR", "or"]) (p.or.getD [])

/-- The predicate has a class for each of its keys that is set. -/
structure Predicate.Keeps (p : Predicate) (v : Json) : Prop where
  session : v.IsSet ["session_has_class", "sessionHasClass"] → p.session.isSome = true
  current : v.IsSet ["current_tool_class", "currentToolClass"] → p.current.isSome = true

/-- All that the value states of a rule is in the rule. -/
structure Rule.Keeps (r : Rule) (v : Json) : Prop where
  tags : r.forbiddenTags.length = (listedEntries v ["forbidden_tags", "forbiddenTags"]).length
  pattern : ∀ w, v.firstPresent? ["pattern"] = some w →
    ∃ p, r.pattern = some p ∧ p.Mirrors (fun e q => q.Keeps e) w
  tool : v.IsFilled ["tool"] → r.tool.isSome = true
  tag : v.IsFilled ["tag"] → r.tag.isSome = true
  error : v.IsFilled ["error"] → r.error.isSome = true
  toolClass : v.IsFilled ["tool_class", "toolClass"] → r.toolClass.isSome = true

/-- The classes that an entry of a branch states are texts. -/
structure Json.HasLegibleClasses (v : Json) : Prop where
  session : v.IsSet ["session_has_class", "sessionHasClass"] →
    v.HoldsText ["session_has_class", "sessionHasClass"]
  current : v.IsSet ["current_tool_class", "currentToolClass"] →
    v.HoldsText ["current_tool_class", "currentToolClass"]

/-- Where a rule wants a text, the value has one or nothing. -/
structure Json.IsLegible (v : Json) : Prop where
  tags : ∀ e ∈ listedEntries v ["forbidden_tags", "forbiddenTags"], ∃ s, s ≠ "" ∧ e = .str s
  classes : ∀ w, v.firstPresent? ["pattern"] = some w →
    (w.get? "type").bind Json.text? = some "logic" →
      ∀ e ∈ branchEntries w ["AND", "and"] ++ branchEntries w ["OR", "or"], e.HasLegibleClasses
  tool : v.IsFilled ["tool"] → v.HoldsText ["tool"]
  tag : v.IsFilled ["tag"] → v.HoldsText ["tag"]
  error : v.IsFilled ["error"] → v.HoldsText ["error"]
  toolClass : v.IsFilled ["tool_class", "toolClass"] → v.HoldsText ["tool_class", "toolClass"]

section texts

theorem isSome_nonEmpty_text?_iff {v : Json} :
    (nonEmpty v.text?).isSome = true ↔ ∃ s, s ≠ "" ∧ v = .str s := by
  constructor
  · intro h
    cases v with
    | str s =>
      refine ⟨s, ?_, rfl⟩
      rintro rfl
      exact absurd h (by decide)
    | _ => exact absurd h (by simp [Json.text?])
  · rintro ⟨s, hs, rfl⟩
    rw [Json.text?_str, nonEmpty_of_ne hs]
    rfl

theorem isSome_firstText?_iff {v : Json} {names : List String} :
    (v.firstText? names).isSome = true ↔ v.HoldsText names := by
  rw [Json.firstText?, List.findSome?_isSome_iff]
  apply exists_congr
  intro name
  apply and_congr_right
  intro _
  cases hg : v.get? name with
  | none => simp
  | some w =>
    rw [Option.bind_some, isSome_nonEmpty_text?_iff]
    simp

theorem isSome_firstPresent?_iff {v : Json} {names : List String} :
    (v.firstPresent? names).isSome = true ↔ v.IsSet names := by
  rw [Json.firstPresent?, List.findSome?_isSome_iff]
  apply exists_congr
  intro name
  apply and_congr_right
  intro _
  cases hg : v.get? name with
  | none => simp
  | some w => cases hw : w.isNull <;> simp [Option.filter_some, hw]

/-- Tags are lost exactly where an entry is no text or an empty one. -/
theorem length_keepTexts_eq_iff {entries : List Json} :
    (keepTexts entries).length = entries.length ↔ ∀ e ∈ entries, ∃ s, s ≠ "" ∧ e = .str s := by
  rw [keepTexts, List.filterMap_length_eq_length]
  simp only [isSome_nonEmpty_text?_iff]

theorem readTags_eq_ok {mode : Mode} {v : Json} {tags : List String}
    (h : readTags mode v = .ok tags) :
    tags = keepTexts (listedEntries v ["forbidden_tags", "forbiddenTags"]) := by
  simp only [readTags] at h
  rw [listedEntries]
  cases hv : v.firstPresent? ["forbidden_tags", "forbiddenTags"] with
  | none =>
    simp only [hv, Except.ok.injEq] at h
    exact h.symm
  | some w =>
    cases hw : w.items? with
    | none =>
      cases mode <;> simp [hv, hw] at h
      simp [h, hw, keepTexts]
    | some entries =>
      simp only [hv, hw, Except.ok.injEq] at h
      simp [← h, hw]

theorem tags_kept_iff {mode : Mode} {v : Json} {tags : List String}
    (h : readTags mode v = .ok tags) :
    tags.length = (listedEntries v ["forbidden_tags", "forbiddenTags"]).length ↔
      ∀ e ∈ listedEntries v ["forbidden_tags", "forbiddenTags"], ∃ s, s ≠ "" ∧ e = .str s := by
  have hk := readTags_eq_ok h
  subst hk
  exact length_keepTexts_eq_iff

/-- A strict reader makes a class of every text that it takes for one. -/
theorem isSome_of_readOptionalClass_strict {s : Option String} {c : Option TaintClass}
    (h : readOptionalClass .strict s = .ok c) : c.isSome = s.isSome := by
  cases s with
  | none => cases h; rfl
  | some s =>
    simp only [readOptionalClass, readClass] at h
    cases hc : TaintClass.ofText? s with
    | none => simp [hc] at h
    | some c' =>
      simp only [hc, Except.ok.injEq] at h
      rw [← h]
      rfl

end texts

section patterns

theorem readStep_strict_isSome {v : Json} {c : Option TaintClass} (h : readStep .strict v = .ok c) :
    c.isSome = true := by
  simp only [readStep] at h
  cases hv : v.firstText? ["class", "Class"] with
  | none => simp [hv] at h
  | some s =>
    rw [hv] at h
    exact isSome_of_readOptionalClass_strict (s := some s) h

theorem readDistance_strict_isSome {v : Json} {n : Option UInt64}
    (h : readDistance .strict v = .ok n) (hv : v.IsSet ["maxDistance", "max_distance"]) :
    n.isSome = true := by
  simp only [readDistance] at h
  obtain ⟨w, hw⟩ := Option.isSome_iff_exists.mp (isSome_firstPresent?_iff.mpr hv)
  simp only [hw] at h
  cases hn : w.word? with
  | none => simp [hn] at h
  | some n' =>
    simp only [hn, Except.ok.injEq] at h
    rw [← h]
    rfl

theorem mirrors_of_readSequence_strict {v : Json} {p : SequencePattern}
    (h : readSequence .strict v = .ok (some p)) (R : Json → Predicate → Prop) :
    (Pattern.sequence p).Mirrors R v := by
  simp only [readSequence] at h
  cases hs : (v.get? "steps").bind Json.items? with
  | none => simp [hs] at h
  | some entries =>
    rw [hs] at h
    obtain ⟨steps, hc, h⟩ := bind_eq_ok.mp h
    obtain ⟨maxDistance, hd, h⟩ := bind_eq_ok.mp h
    cases h
    have hf : List.Forall₂ (fun a c => readStep .strict a = .ok (some c))
        (entries.filter fun _ => true) steps :=
      collect_forall₂ (fun _ _ hr => readStep_strict_isSome hr) hc
    have hl := hf.length_eq
    rw [List.filter_true] at hl
    refine ⟨?_, readDistance_strict_isSome hd⟩
    rw [stepEntries, hs, Option.getD_some]
    exact hl.symm

theorem readPredicate_strict_isSome {v : Json} {piece : Option Predicate}
    (h : readPredicate .strict v = .ok piece) : piece.isSome = !v.isNull := by
  unfold readPredicate at h
  split at h
  · next hn => cases h; simp [hn]
  · next hn =>
    obtain ⟨session, -, h⟩ := bind_eq_ok.mp h
    obtain ⟨current, -, h⟩ := bind_eq_ok.mp h
    dsimp only at h
    split at h
    · simp at h
    · cases h; simp [hn]

/-- A predicate has the classes that its entry states by texts. -/
theorem classes_of_readPredicate_strict {v : Json} {p : Predicate}
    (h : readPredicate .strict v = .ok (some p)) :
    (p.session.isSome = true ↔ v.HoldsText ["session_has_class", "sessionHasClass"]) ∧
    (p.current.isSome = true ↔ v.HoldsText ["current_tool_class", "currentToolClass"]) := by
  unfold readPredicate at h
  split at h
  · simp at h
  · obtain ⟨session, hs, h⟩ := bind_eq_ok.mp h
    obtain ⟨current, hc, h⟩ := bind_eq_ok.mp h
    dsimp only at h
    split at h
    · simp at h
    · cases h
      rw [isSome_of_readOptionalClass_strict hs, isSome_of_readOptionalClass_strict hc,
        isSome_firstText?_iff, isSome_firstText?_iff]
      exact ⟨Iff.rfl, Iff.rfl⟩

theorem readPredicate_strict_keeps_iff {v : Json} {p : Predicate}
    (h : readPredicate .strict v = .ok (some p)) : p.Keeps v ↔ v.HasLegibleClasses := by
  obtain ⟨hs, hc⟩ := classes_of_readPredicate_strict h
  constructor
  · exact fun hk => ⟨fun hv => hs.mp (hk.session hv), fun hv => hc.mp (hk.current hv)⟩
  · exact fun hl => ⟨fun hv => hs.mpr (hl.session hv), fun hv => hc.mpr (hl.current hv)⟩

/-- Each predicate of a branch was read from the entry at its place. -/
theorem forall₂_of_readBranch_strict {raw : Option Json} {branch : Option (List Predicate)}
    (h : readBranch .strict raw = .ok branch) :
    List.Forall₂ (fun e p => readPredicate .strict e = .ok (some p))
      (((raw.bind Json.items?).getD []).filter fun e => !e.isNull) (branch.getD []) := by
  cases raw with
  | none => cases h; exact .nil
  | some v =>
    simp only [readBranch] at h
    cases hv : v.items? with
    | none => simp [hv] at h
    | some entries =>
      rw [hv] at h
      obtain ⟨ps, hc, h⟩ := bind_eq_ok.mp h
      have hb : branch.getD [] = ps := by
        cases h
        cases ps <;> rfl
      rw [hb, Option.bind_some, hv, Option.getD_some]
      exact collect_forall₂ (fun _ _ hr => readPredicate_strict_isSome hr) hc

theorem readCondition_strict_eq_ok {v : Json} {c : Option Json}
    (h : readCondition .strict v = .ok c) : v.firstPresent? ["condition"] = c := by
  simp only [readCondition] at h
  cases hv : v.firstPresent? ["condition"] with
  | none => rw [hv] at h; exact Except.ok.inj h
  | some w =>
    simp only [hv] at h
    split at h
    · exact Except.ok.inj h
    · simp at h

theorem mirrors_of_readLogic_strict {v : Json} {p : LogicPattern}
    (h : readLogic .strict v = .ok (some p)) :
    (Pattern.logic p).Mirrors (fun e q => readPredicate .strict e = .ok (some q)) v := by
  simp only [readLogic] at h
  split at h
  · obtain ⟨condition, hc, h⟩ := bind_eq_ok.mp h
    obtain ⟨and, hand, h⟩ := bind_eq_ok.mp h
    obtain ⟨or, hor, h⟩ := bind_eq_ok.mp h
    cases h
    rw [← readCondition_strict_eq_ok hc] at hand hor
    exact ⟨forall₂_of_readBranch_strict hand, forall₂_of_readBranch_strict hor⟩
  · simp at h

/-- The kind of a pattern is the one that was stated, and its parts were read from the entries at
their places. -/
theorem mirrors_of_readPattern_strict {v : Json} {p : Pattern}
    (h : readPattern .strict v = .ok (some p)) :
    p.Mirrors (fun e q => readPredicate .strict e = .ok (some q)) v ∧
      ((v.get? "type").bind Json.text? = some "logic" ↔ ∃ q, p = .logic q) := by
  simp only [readPattern] at h
  split at h
  · next ht =>
    obtain ⟨q, hq, h⟩ := map_eq_ok.mp h
    obtain ⟨q, rfl, rfl⟩ := Option.map_eq_some_iff.mp h
    refine ⟨mirrors_of_readSequence_strict hq _, ?_⟩
    simp [ht]
  · next ht =>
    obtain ⟨q, hq, h⟩ := map_eq_ok.mp h
    obtain ⟨q, rfl, rfl⟩ := Option.map_eq_some_iff.mp h
    exact ⟨mirrors_of_readLogic_strict hq, ⟨fun _ => ⟨q, rfl⟩, fun _ => ht⟩⟩
  · simp at h

theorem forall₂_iff_forall_mem {α β : Type} {R Q : α → β → Prop} {P : α → Prop}
    (hq : ∀ a b, R a b → (Q a b ↔ P a)) {as : List α} {bs : List β} (h : List.Forall₂ R as bs) :
    List.Forall₂ Q as bs ↔ ∀ a ∈ as, P a := by
  induction h with
  | nil => simp
  | cons hab _ ih => rw [List.forall₂_cons, List.forall_mem_cons, hq _ _ hab, ih]

theorem readPattern_strict_keeps_iff {v : Json} {p : Pattern}
    (h : readPattern .strict v = .ok (some p)) :
    p.Mirrors (fun e q => q.Keeps e) v ↔
      ((v.get? "type").bind Json.text? = some "logic" →
        ∀ e ∈ branchEntries v ["AND", "and"] ++ branchEntries v ["OR", "or"],
          e.HasLegibleClasses) := by
  obtain ⟨hm, ht⟩ := mirrors_of_readPattern_strict h
  cases p with
  | sequence p =>
    -- Both sides hold: the kind is not `logic`, and the steps are kept whatever they are.
    refine ⟨fun _ hl => ?_, fun _ => hm⟩
    obtain ⟨q, hq⟩ := ht.mp hl
    cases hq
  | logic p =>
    have hk : ∀ e q, readPredicate .strict e = .ok (some q) →
        (q.Keeps e ↔ e.HasLegibleClasses) := fun _ _ hr => readPredicate_strict_keeps_iff hr
    rw [Pattern.Mirrors, forall₂_iff_forall_mem hk hm.1, forall₂_iff_forall_mem hk hm.2,
      ← List.forall_mem_append]
    exact ⟨fun ha _ => ha, fun ha => ha (ht.mpr ⟨p, rfl⟩)⟩

end patterns

section rules

variable {v : Json} {read : ReadRule}

/-- Where there is a pattern, a strict reader makes one of it. -/
theorem exists_readPattern_of_readRule_strict (h : readRule .strict v = .ok (some read)) {w : Json}
    (hw : v.firstPresent? ["pattern"] = some w) :
    ∃ p, read.rule.pattern = some p ∧ readPattern .strict w = .ok (some p) := by
  obtain ⟨-, -, -, hp, -⟩ := readRule_eq_ok h
  rw [readRulePattern, hw] at hp
  cases hq : read.rule.pattern with
  | none => exact absurd (hq ▸ hp) (readPattern_strict_ne_none w)
  | some p => exact ⟨p, rfl, hq ▸ hp⟩

theorem pattern_kept_iff (h : readRule .strict v = .ok (some read)) {w : Json}
    (hw : v.firstPresent? ["pattern"] = some w) :
    (∃ p, read.rule.pattern = some p ∧ p.Mirrors (fun e q => q.Keeps e) w) ↔
      ((w.get? "type").bind Json.text? = some "logic" →
        ∀ e ∈ branchEntries w ["AND", "and"] ++ branchEntries w ["OR", "or"],
          e.HasLegibleClasses) := by
  obtain ⟨p, hq, hr⟩ := exists_readPattern_of_readRule_strict h hw
  rw [← readPattern_strict_keeps_iff hr, hq]
  simp

/-- A field that is read as the first text under its names is kept where a text is there. -/
theorem text_kept_iff {α : Type} {names : List String} {field : Option α}
    (h : field.isSome = (v.firstText? names).isSome) :
    (v.IsFilled names → field.isSome = true) ↔ (v.IsFilled names → v.HoldsText names) := by
  rw [h, isSome_firstText?_iff]

/-- Strict reading leaves out no step, no distance and no predicate. All that a rule states is kept
exactly if texts stand where it wants texts. -/
theorem strict_reading_keeps_iff (h : readRule .strict v = .ok (some read)) :
    (∀ w, v.firstPresent? ["pattern"] = some w →
      ∃ p, read.rule.pattern = some p ∧
        p.Mirrors (fun e q => readPredicate .strict e = .ok (some q)) w) ∧
    (read.rule.Keeps v ↔ v.IsLegible) := by
  obtain ⟨-, hc, ht, -, -, htool, htag, herror⟩ := readRule_eq_ok h
  constructor
  · intro w hw
    obtain ⟨p, hq, hr⟩ := exists_readPattern_of_readRule_strict h hw
    exact ⟨p, hq, (mirrors_of_readPattern_strict hr).1⟩
  · have htags := tags_kept_iff ht
    have htool' := text_kept_iff (congrArg Option.isSome htool)
    have htag' := text_kept_iff (congrArg Option.isSome htag)
    have herror' := text_kept_iff (congrArg Option.isSome herror)
    have hclass := text_kept_iff (isSome_of_readOptionalClass_strict hc)
    constructor
    · intro hk
      exact ⟨htags.mp hk.tags, fun w hw => (pattern_kept_iff h hw).mp (hk.pattern w hw),
        htool'.mp hk.tool, htag'.mp hk.tag, herror'.mp hk.error, hclass.mp hk.toolClass⟩
    · intro hl
      exact ⟨htags.mpr hl.tags, fun w hw => (pattern_kept_iff h hw).mpr (hl.classes w hw),
        htool'.mpr hl.tool, htag'.mpr hl.tag, herror'.mpr hl.error, hclass.mpr hl.toolClass⟩

end rules

/-- A block with a tag and a condition on two classes, one of them beside a `null`. -/
def legibleRule : Json :=
  .obj [("action", .str "BLOCK_CURRENT"), ("error", .str "stop"),
    ("forbiddenTags", .arr [.str "pii"]), ("pattern",
    .obj [("type", .str "logic"), ("condition", .obj [
      ("AND", .arr [.null, .obj [("sessionHasClass", .str "SENSITIVE_READ")]]),
      ("or", .arr [.obj [("current_tool_class", .str "UNSAFE_EXECUTE")]])])])]

def legibleRead : ReadRule where
  rule := { Rule.forPattern .blockCurrent (.logic
      ⟨some [⟨some .sensitiveRead, none⟩], some [⟨none, some .unsafeExecute⟩]⟩) with
    forbiddenTags := ["pii"], error := some "stop" }
  id := none
  source := none

theorem legibleRule_isLegible : legibleRule.IsLegible := by
  constructor
  case tags =>
    have ht : listedEntries legibleRule ["forbidden_tags", "forbiddenTags"] = [.str "pii"] := rfl
    simp [ht]
  case classes =>
    intro w hw _
    have hb : branchEntries w ["AND", "and"] ++ branchEntries w ["OR", "or"] =
        [.obj [("sessionHasClass", .str "SENSITIVE_READ")],
          .obj [("current_tool_class", .str "UNSAFE_EXECUTE")]] := by
      cases hw
      rfl
    rw [hb, List.forall_mem_cons, List.forall_mem_singleton]
    constructor <;> constructor <;> simp [Json.IsSet, Json.HoldsText, Fields.find?]
  case error => exact fun _ => ⟨"error", by simp, "stop", by decide, rfl⟩
  case tool =>
    have hn : legibleRule.get? "tool" = none := rfl
    simp [Json.IsFilled, hn]
  case tag =>
    have hn : legibleRule.get? "tag" = none := rfl
    simp [Json.IsFilled, hn]
  case toolClass =>
    have hn : legibleRule.get? "tool_class" = none := rfl
    have hn' : legibleRule.get? "toolClass" = none := rfl
    simp [Json.IsFilled, hn, hn']

theorem strict_reading_keeps_legibleRule :
    readRule .strict legibleRule = .ok (some legibleRead) ∧ legibleRead.rule.Keeps legibleRule := by
  have hr : readRule .strict legibleRule = .ok (some legibleRead) := rfl
  exact ⟨hr, (strict_reading_keeps_iff hr).2.mpr legibleRule_isLegible⟩

/-- A check of two tags, one of them a number. -/
def numberedTagRule : Json :=
  .obj [("action", .str "CHECK_TAINT"), ("tool_class", .str "CONSEQUENTIAL_WRITE"),
    ("forbidden_tags", .arr [.num (.int 7), .str "pii"])]

theorem strict_reading_loses_numbered_tag :
    ∃ read, readRule .strict numberedTagRule = .ok (some read) ∧ ¬ read.rule.Keeps numberedTagRule := by
  refine ⟨⟨{ Rule.forClass .checkTaint .consequentialWrite with forbiddenTags := ["pii"] }, none,
    none⟩, rfl, fun hk => ?_⟩
  exact absurd hk.tags (by decide)

end TaintPolicy
