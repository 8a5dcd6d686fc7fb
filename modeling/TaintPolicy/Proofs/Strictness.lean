import TaintPolicy.Proofs.Outcome
import TaintPolicy.Restore

/-!
# Strict and lenient reading

A strict reader stops where a lenient one drops a piece. Hence a lenient reader never fails on a
value, and whatever a strict reader makes of a value a lenient one makes of it too. Both properties
pass through everything that readers are put together with, so each reader has them because its
parts have them.
-/

namespace TaintPolicy

variable {α β : Type}

/-- Reads the same leniently wherever it reads strictly. -/
def Refines (read : Mode → Except Fault α) : Prop :=
  ∀ a, read .strict = .ok a → read .lenient = .ok a

/-- Never fails leniently, and reads the same leniently wherever it reads strictly. -/
structure Forgiving (read : Mode → Except Fault α) : Prop where
  total : ∃ a, read .lenient = .ok a
  refines : Refines read

namespace Forgiving

theorem ok (a : α) : Forgiving fun _ => .ok a := ⟨⟨a, rfl⟩, fun _ h => h⟩

theorem tolerate (fault : Fault) (a : α) : Forgiving fun mode => mode.tolerate fault a :=
  ⟨⟨a, rfl⟩, fun _ h => by simp at h⟩

theorem bind {read : Mode → Except Fault α} {next : α → Mode → Except Fault β}
    (h : Forgiving read) (hn : ∀ a, Forgiving (next a)) :
    Forgiving fun mode => read mode >>= fun a => next a mode := by
  constructor
  · obtain ⟨a, ha⟩ := h.total
    obtain ⟨b, hb⟩ := (hn a).total
    exact ⟨b, bind_eq_ok.mpr ⟨a, ha, hb⟩⟩
  · intro b hb
    obtain ⟨a, ha, hb⟩ := bind_eq_ok.mp hb
    exact bind_eq_ok.mpr ⟨a, h.refines a ha, (hn a).refines b hb⟩

theorem map {read : Mode → Except Fault α} (f : α → β) (h : Forgiving read) :
    Forgiving fun mode => (read mode).map f := by
  constructor
  · obtain ⟨a, ha⟩ := h.total
    exact ⟨f a, map_eq_ok.mpr ⟨a, ha, rfl⟩⟩
  · intro b hb
    obtain ⟨a, ha, hb⟩ := map_eq_ok.mp hb
    exact map_eq_ok.mpr ⟨a, h.refines a ha, hb⟩

theorem collect {read : Mode → α → Except Fault (Option β)} (as : List α)
    (h : ∀ a, Forgiving fun mode => read mode a) :
    Forgiving fun mode => TaintPolicy.collect (read mode) as := by
  induction as with
  | nil => exact ok []
  | cons a as ih =>
    constructor
    · obtain ⟨piece, hr⟩ := (h a).total
      obtain ⟨rest, hc⟩ := ih.total
      exact ⟨piece.toList ++ rest, collect_cons_ok hr hc⟩
    · intro pieces hp
      obtain ⟨piece, rest, hr, hc, rfl⟩ := collect_cons_eq_ok.mp hp
      exact collect_cons_ok ((h a).refines piece hr) (ih.refines rest hc)

end Forgiving

section Readers

theorem readClass_forgiving (s : String) : Forgiving fun mode => readClass mode s := by
  simp only [readClass]
  cases TaintClass.ofText? s with
  | none => exact .tolerate _ _
  | some c => exact .ok _

theorem readOptionalClass_forgiving (s : Option String) :
    Forgiving fun mode => readOptionalClass mode s := by
  cases s with
  | none => exact .ok _
  | some s => exact readClass_forgiving s

theorem readStep_forgiving (v : Json) : Forgiving fun mode => readStep mode v := by
  simp only [readStep]
  cases v.firstText? ["class", "Class"] with
  | none => exact .tolerate _ _
  | some s => exact readClass_forgiving s

theorem readDistance_forgiving (v : Json) : Forgiving fun mode => readDistance mode v := by
  simp only [readDistance]
  cases v.firstPresent? ["maxDistance", "max_distance"] with
  | none => exact .ok _
  | some w =>
    dsimp only
    cases w.word? with
    | none => exact .tolerate _ _
    | some n => exact .ok _

theorem readSequence_forgiving (v : Json) : Forgiving fun mode => readSequence mode v := by
  simp only [readSequence]
  cases (v.get? "steps").bind Json.items? with
  | none => exact .tolerate _ _
  | some entries =>
    refine .bind (.collect entries readStep_forgiving) fun steps => ?_
    exact .bind (readDistance_forgiving v) fun maxDistance => .ok _

theorem readPredicate_forgiving (v : Json) : Forgiving fun mode => readPredicate mode v := by
  unfold readPredicate
  split
  · exact .ok _
  · refine .bind (readOptionalClass_forgiving _) fun session => ?_
    refine .bind (readOptionalClass_forgiving _) fun current => ?_
    dsimp only
    split
    · exact .tolerate _ _
    · exact .ok _

theorem readBranch_forgiving (v : Option Json) : Forgiving fun mode => readBranch mode v := by
  cases v with
  | none => exact .ok _
  | some v =>
    simp only [readBranch]
    cases v.items? with
    | none => exact .tolerate _ _
    | some entries =>
      exact .bind (.collect entries readPredicate_forgiving) fun ps => .ok _

theorem readCondition_forgiving (v : Json) : Forgiving fun mode => readCondition mode v := by
  simp only [readCondition]
  cases v.firstPresent? ["condition"] with
  | none => exact .ok _
  | some c =>
    dsimp only
    split
    · exact .ok _
    · exact .tolerate _ _

theorem readLogic_forgiving (v : Json) : Forgiving fun mode => readLogic mode v := by
  simp only [readLogic]
  split
  · refine .bind (readCondition_forgiving v) fun condition => ?_
    refine .bind (readBranch_forgiving _) fun and => ?_
    exact .bind (readBranch_forgiving _) fun or => .ok _
  · exact .tolerate _ _

theorem readPattern_forgiving (v : Json) : Forgiving fun mode => readPattern mode v := by
  simp only [readPattern]
  split
  · exact .map _ (readSequence_forgiving v)
  · exact .map _ (readLogic_forgiving v)
  · exact .tolerate _ _

theorem readAction_forgiving (v : Json) : Forgiving fun mode => readAction mode v := by
  simp only [readAction]
  cases v.firstText? ["action"] with
  | none => exact .tolerate _ _
  | some s =>
    dsimp only
    cases TaintAction.ofText? s with
    | none => exact .tolerate _ _
    | some action => exact .ok _

theorem readTags_forgiving (v : Json) : Forgiving fun mode => readTags mode v := by
  simp only [readTags]
  cases v.firstPresent? ["forbidden_tags", "forbiddenTags"] with
  | none => exact .ok _
  | some w =>
    dsimp only
    cases w.items? with
    | none => exact .tolerate _ _
    | some entries => exact .ok _

theorem readRulePattern_forgiving (v : Json) : Forgiving fun mode => readRulePattern mode v := by
  simp only [readRulePattern]
  cases v.firstPresent? ["pattern"] with
  | none => exact .ok _
  | some w => exact readPattern_forgiving w

theorem checkTarget_forgiving (r : Rule) : Forgiving fun mode => checkTarget mode r := by
  simp only [checkTarget]
  cases r.targetDefect? with
  | none => exact .ok _
  | some defect => exact .tolerate _ _

theorem readRule_forgiving (v : Json) : Forgiving fun mode => readRule mode v := by
  simp only [readRule]
  split
  · refine .bind (readAction_forgiving v) fun action => ?_
    cases action with
    | none => exact .ok _
    | some action =>
      refine .bind (readOptionalClass_forgiving _) fun toolClass => ?_
      refine .bind (readTags_forgiving v) fun forbiddenTags => ?_
      refine .bind (readRulePattern_forgiving v) fun pattern => ?_
      exact .bind (checkTarget_forgiving _) fun _ => .ok _
  · exact .tolerate _ _

theorem readGate_forgiving (f : String × Json) : Forgiving fun mode => readGate mode f := by
  unfold readGate
  dsimp only
  cases Gate.ofText? (f.2.text?.getD "") with
  | none => exact .tolerate _ _
  | some g => exact .ok _

theorem readGates_forgiving (v : Option Json) : Forgiving fun mode => readGates mode v := by
  cases v with
  | none => exact .ok _
  | some v =>
    simp only [readGates]
    cases v.fields? with
    | none => exact .tolerate _ _
    | some fs => exact .collect fs readGate_forgiving

theorem restore_forgiving (catalog : Catalog) (assigner : Assigner) (document : Json) :
    Forgiving fun mode => restore catalog assigner mode document := by
  simp only [restore]
  cases firstPolicy? document with
  | none => exact .ok _
  | some policy =>
    refine .bind (readGates_forgiving _) fun gates => ?_
    have hr : ∀ entry, Forgiving fun mode => restoreRule assigner mode entry :=
      fun entry => .map _ (readRule_forgiving entry.1)
    exact .bind (.collect _ hr) fun rules => .ok _

theorem readTemplate_forgiving (v : Json) : Forgiving fun mode => readTemplate mode v := by
  simp only [readTemplate]
  cases v.firstText? ["name"] with
  | none => exact .tolerate _ _
  | some name =>
    refine .bind (readGates_forgiving _) fun gates => ?_
    have hr : ∀ entry, Forgiving fun mode => readTemplateRule mode name entry :=
      fun entry => .map _ (readRule_forgiving entry.1)
    exact .bind (.collect _ hr) fun rules => .ok _

end Readers

/-! Templates alone have a fault that lenient reading does not forgive. Both modes meet it. -/

theorem readTemplates_refines (document : Json) :
    Refines fun mode => readTemplates mode document := by
  simp only [readTemplates]
  cases document.firstPresent? ["rule_templates"] with
  | none => exact (Forgiving.tolerate _ _).refines
  | some v =>
    cases hv : v.items? with
    | none => simp [Refines, hv]
    | some entries => simpa only [hv] using (Forgiving.collect entries readTemplate_forgiving).refines

theorem readTemplates_eq_error {document : Json} {fault : Fault}
    (h : readTemplates .lenient document = .error fault) :
    readTemplates .strict document = .error fault := by
  simp only [readTemplates] at h ⊢
  cases hd : document.firstPresent? ["rule_templates"] with
  | none => simp [hd] at h
  | some v =>
    cases hv : v.items? with
    | none => simpa [hd, hv] using h
    | some entries =>
      obtain ⟨ts, ht⟩ := (Forgiving.collect entries readTemplate_forgiving).total
      simp [hd, hv, ht] at h

theorem listOfText_refines (text : String) : Refines fun mode => Template.listOfText mode text := by
  simp only [Template.listOfText]
  cases Yaml.read text with
  | error fault => exact fun _ h => h
  | ok document => exact readTemplates_refines document

theorem listOfText_eq_error {text : String} {fault : Fault}
    (h : Template.listOfText .lenient text = .error fault) :
    Template.listOfText .strict text = .error fault := by
  simp only [Template.listOfText] at h ⊢
  cases hy : Yaml.read text with
  | error f => simpa [hy] using h
  | ok document =>
    rw [hy] at h
    exact readTemplates_eq_error h

/-! Strict reading of a pattern or a rule ends with one or with a fault. -/

theorem readSequence_strict_ne_none (v : Json) : readSequence .strict v ≠ .ok none := by
  simp only [readSequence]
  intro h
  cases hs : (v.get? "steps").bind Json.items? with
  | none => simp [hs] at h
  | some entries =>
    rw [hs] at h
    obtain ⟨steps, -, h⟩ := bind_eq_ok.mp h
    obtain ⟨maxDistance, -, h⟩ := bind_eq_ok.mp h
    simp at h

theorem readLogic_strict_ne_none (v : Json) : readLogic .strict v ≠ .ok none := by
  simp only [readLogic]
  intro h
  split at h
  · obtain ⟨condition, -, h⟩ := bind_eq_ok.mp h
    obtain ⟨and, -, h⟩ := bind_eq_ok.mp h
    obtain ⟨or, -, h⟩ := bind_eq_ok.mp h
    simp at h
  · simp at h

theorem readPattern_strict_ne_none (v : Json) : readPattern .strict v ≠ .ok none := by
  simp only [readPattern]
  intro h
  split at h
  · obtain ⟨p, hp, h⟩ := map_eq_ok.mp h
    rw [Option.map_eq_none_iff] at h
    exact readSequence_strict_ne_none v (h ▸ hp)
  · obtain ⟨p, hp, h⟩ := map_eq_ok.mp h
    rw [Option.map_eq_none_iff] at h
    exact readLogic_strict_ne_none v (h ▸ hp)
  · simp at h

theorem readAction_strict_ne_none (v : Json) : readAction .strict v ≠ .ok none := by
  simp only [readAction]
  intro h
  cases hv : v.firstText? ["action"] with
  | none => simp [hv] at h
  | some s => cases hs : TaintAction.ofText? s <;> simp [hv, hs] at h

theorem readRule_strict_ne_none (v : Json) : readRule .strict v ≠ .ok none := by
  simp only [readRule]
  intro h
  split at h
  · obtain ⟨action, ha, h⟩ := bind_eq_ok.mp h
    cases action with
    | none => exact readAction_strict_ne_none v ha
    | some action =>
      obtain ⟨toolClass, -, h⟩ := bind_eq_ok.mp h
      obtain ⟨forbiddenTags, -, h⟩ := bind_eq_ok.mp h
      obtain ⟨pattern, -, h⟩ := bind_eq_ok.mp h
      obtain ⟨_, -, h⟩ := bind_eq_ok.mp h
      simp at h
  · simp at h

/-- Strict reading refines lenient reading, from patterns up to whole policies and templates. -/
theorem strict_refines_lenient :
    (∀ v, Forgiving fun mode => readSequence mode v) ∧
    (∀ v, Forgiving fun mode => readLogic mode v) ∧
    (∀ v, (Forgiving fun mode => readPattern mode v) ∧ readPattern .strict v ≠ .ok none) ∧
    (∀ v, (Forgiving fun mode => readRule mode v) ∧ readRule .strict v ≠ .ok none) ∧
    (∀ v, Forgiving fun mode => readGates mode v) ∧
    (∀ catalog assigner document,
      Forgiving fun mode => restore catalog assigner mode document) ∧
    ∀ text, (Refines fun mode => Template.listOfText mode text) ∧
      ∀ fault, Template.listOfText .lenient text = .error fault →
        Template.listOfText .strict text = .error fault := by
  refine ⟨readSequence_forgiving, readLogic_forgiving, fun v => ?_, fun v => ?_,
    readGates_forgiving, restore_forgiving, fun text => ?_⟩
  · exact ⟨readPattern_forgiving v, readPattern_strict_ne_none v⟩
  · exact ⟨readRule_forgiving v, readRule_strict_ne_none v⟩
  · exact ⟨listOfText_refines text, fun _ h => listOfText_eq_error h⟩

/-- A rule with a pattern that strict reading accepts. -/
def guardRule : Json :=
  .obj [("action", .str "BLOCK_SECOND"), ("forbiddenTags", .arr [.str "pii", .str ""]), ("pattern",
    .obj [("type", .str "sequence"), ("max_distance", .num (.int 3)),
      ("steps", .arr [.obj [("Class", .str "SENSITIVE_READ")], .obj [("class", .str "SANITIZER")]])])]

def guardRead : ReadRule where
  rule := { Rule.forPattern .blockSecond (.sequence ⟨[.sensitiveRead, .sanitizer], some 3⟩) with
    forbiddenTags := ["pii"] }
  id := none
  source := none

theorem strict_refines_lenient_guard :
    readRule .strict guardRule = .ok (some guardRead) ∧
    readRule .lenient guardRule = .ok (some guardRead) := by
  have hs : readRule .strict guardRule = .ok (some guardRead) := rfl
  exact ⟨hs, (strict_refines_lenient.2.2.2.1 guardRule).1.refines _ hs⟩

end TaintPolicy
