import Mathlib.Tactic.Tauto
import TaintPolicy.Proofs.CompiledGates
import TaintPolicy.Proofs.PlainValues
import TaintPolicy.Proofs.QuotedText
import TaintPolicy.Policy

/-!
# The texts of compiled files

Apart from words of its own, a policy file holds the texts that the selection brings: the name of
the policy, the texts of the rules, and the names of the tools, which are names of fields. So a
condition that every such word meets holds for the file exactly if it holds for these.
-/

namespace TaintPolicy

/-- The texts that an operator chose for a rule. -/
def Rule.texts (r : Rule) : List String :=
  r.tool.toList ++ (r.tag.toList ++ (r.forbiddenTags ++ r.error.toList))

/-- A short text of graphic characters, as the words of the file format are. -/
def IsWordlike (w : String) : Prop := w.toList.all Yaml.isGraphic = true ∧ w.length ≤ 100

instance (w : String) : Decidable (IsWordlike w) :=
  inferInstanceAs (Decidable (_ ∧ _))

namespace Json

variable {text name : String → Prop} {fs gs : Fields Json} {k : String}

theorem everyField_append :
    EveryField text name (fs ++ gs) ↔ EveryField text name fs ∧ EveryField text name gs := by
  simp only [everyField_iff, List.forall_mem_append]

theorem everyField_fieldWhen (hk : name k) {v : Option Json} :
    EveryField text name (fieldWhen k v) ↔ ∀ u ∈ v, u.Every text name := by
  cases v <;> simp [fieldWhen, EveryField, hk]

theorem everyField_fieldUnlessEmpty (hk : name k) {vs : List Json} :
    EveryField text name (fieldUnlessEmpty k vs) ↔ ∀ u ∈ vs, u.Every text name := by
  cases vs with
  | nil => simp [fieldUnlessEmpty, EveryField]
  | cons v vs => simp [fieldUnlessEmpty, EveryField, Every, everyItem_iff, hk]

end Json

section names

variable {α : Type}

/-- The names in a map are those that were put in. -/
theorem KeyMap.mem_names_ofList (es : List (String × α)) (k : String) :
    k ∈ Fields.names (ofList es).entries ↔ k ∈ Fields.names es := by
  suffices hm : ∀ (es : List (String × α)) (m : KeyMap α),
      k ∈ Fields.names (es.foldl (fun m e => m.insert e.1 e.2) m).entries ↔
        k ∈ Fields.names m.entries ∨ k ∈ Fields.names es by
    exact (hm es empty).trans (by simp)
  intro es
  induction es with
  | nil => simp
  | cons e es ih =>
    intro m
    rw [List.foldl_cons, ih, entries_insert, mem_names_insertEntry, Fields.names_cons,
      List.mem_cons]
    tauto

end names

section words

open Json

variable {text name : String → Prop}

/-- Both conditions hold for the words of the file format. -/
def HoldsForWords (text name : String → Prop) : Prop := ∀ w, IsWordlike w → text w ∧ name w

variable (hw : HoldsForWords text name)

include hw

theorem HoldsForWords.taintClass (c : TaintClass) : c.toJson.Every text name :=
  (hw c.text (by cases c <;> decide)).1

theorem HoldsForWords.taintAction (a : TaintAction) : a.toJson.Every text name :=
  (hw a.text (by cases a <;> decide)).1

theorem HoldsForWords.gate (g : Gate) : g.toJson.Every text name :=
  (hw g.text (by cases g <;> decide)).1

theorem HoldsForWords.key (k : String) (h : IsWordlike k) : name k := (hw k h).2

theorem HoldsForWords.predicate (p : Predicate) : (p.toJson .snake).Every text name := by
  have hs := hw.key Spelling.snake.sessionKey (by decide)
  have hc := hw.key Spelling.snake.currentKey (by decide)
  rw [Predicate.toJson, Every, everyField_append, everyField_fieldWhen hs, everyField_fieldWhen hc]
  simp [hw.taintClass]

theorem HoldsForWords.pattern (p : Pattern) : p.toEntry.toJson.Every text name := by
  have htype := hw.key "type" (by decide)
  cases p with
  | sequence p =>
    have hsteps := hw.key "steps" (by decide)
    have hclass := hw.key "class" (by decide)
    have hdistance := hw.key Spelling.snake.distanceKey (by decide)
    have hword := (hw "sequence" (by decide)).1
    simp only [Pattern.toEntry, EntryPattern.toJson, SequencePattern.toFields, Every, EveryField,
      everyField_fieldWhen hdistance, everyItem_iff]
    refine ⟨htype, hword, hsteps, fun v hv => ?_, fun v hv => ?_⟩
    · obtain ⟨c, -, rfl⟩ := List.mem_map.mp hv
      exact ⟨hclass, hw.taintClass c, trivial⟩
    · obtain ⟨n, -, rfl⟩ := Option.map_eq_some_iff.mp hv
      trivial
  | logic p =>
    have hcondition := hw.key "condition" (by decide)
    have hand := hw.key "AND" (by decide)
    have hor := hw.key "OR" (by decide)
    have hword := (hw "logic" (by decide)).1
    have hbranch : ∀ ps : List Predicate, ∀ v ∈ ps.map (Predicate.toJson .snake),
        v.Every text name := by
      intro ps v hv
      obtain ⟨q, -, rfl⟩ := List.mem_map.mp hv
      exact hw.predicate q
    simp only [Pattern.toEntry, EntryPattern.toJson, Every, EveryField, everyField_append,
      everyField_fieldUnlessEmpty hand, everyField_fieldUnlessEmpty hor]
    exact ⟨htype, hword, hcondition, ⟨hbranch _, hbranch _⟩, trivial⟩

/-- An empty text is left out of an entry, and would meet the condition. -/
theorem HoldsForWords.nonEmpty (s : Option String) :
    (∀ v ∈ (nonEmpty s).map Json.str, v.Every text name) ↔ ∀ t ∈ s, text t := by
  have hempty : text "" := (hw "" (by decide)).1
  cases s with
  | none => simp
  | some s =>
    by_cases hs : s = ""
    · simp [hs, hempty]
    · simp [nonEmpty_of_ne hs, Every]

theorem HoldsForWords.toEntry (r : Rule) :
    r.toEntry.toJson.Every text name ↔ ∀ t ∈ r.texts, text t := by
  have haction := hw.key "action" (by decide)
  have htool := hw.key "tool" (by decide)
  have hclass := hw.key "tool_class" (by decide)
  have htag := hw.key "tag" (by decide)
  have hforbidden := hw.key "forbidden_tags" (by decide)
  have herror := hw.key "error" (by decide)
  have hpattern := hw.key "pattern" (by decide)
  have hclasses : ∀ u ∈ r.toolClass.map TaintClass.toJson, u.Every text name := by
    intro u hu
    obtain ⟨c, -, rfl⟩ := Option.map_eq_some_iff.mp hu
    exact hw.taintClass c
  have hpatterns : ∀ u ∈ (r.pattern.map Pattern.toEntry).map EntryPattern.toJson,
      u.Every text name := by
    intro u hu
    rw [Option.map_map] at hu
    obtain ⟨p, -, rfl⟩ := Option.map_eq_some_iff.mp hu
    exact hw.pattern p
  simp only [Entry.toJson, Entry.toFields, Rule.toEntry, Every, EveryField, everyField_append,
    everyField_fieldWhen htool, everyField_fieldWhen hclass, everyField_fieldWhen htag,
    everyField_fieldUnlessEmpty hforbidden, everyField_fieldWhen herror,
    everyField_fieldWhen hpattern, hw.nonEmpty, haction, hw.taintAction, true_and]
  simp only [Rule.texts, List.forall_mem_append, List.forall_mem_map, Option.mem_toList, Every]
  rw [and_iff_right hclasses, and_iff_left hpatterns]
  exact Iff.rfl

theorem HoldsForWords.compileGates (honor : Bool) (tools : List Selected) :
    ((compileGates honor tools).toJson Gate.toJson).Every text name ↔ ∀ t ∈ tools, name t.name := by
  have hentries : ((TaintPolicy.compileGates honor tools).toJson Gate.toJson).Every text name ↔
      ∀ k ∈ Fields.names (TaintPolicy.compileGates honor tools).entries, name k := by
    rw [KeyMap.toJson, Every, everyField_iff, Fields.names, List.forall_mem_map, List.forall_mem_map]
    exact forall₂_congr fun e _ => and_iff_left (hw.gate e.2)
  rw [hentries, TaintPolicy.compileGates]
  simp only [KeyMap.mem_names_ofList]
  rw [Fields.names, List.map_map, List.forall_mem_map]
  exact Iff.rfl

/-- What a condition says of a compiled file, it says of the texts of the selection. -/
theorem HoldsForWords.compile (honor : Bool) (s : Selection) :
    (s.compile honor).toJson.Every text name ↔
      text (policyName s.policyName) ∧ (∀ t ∈ s.tools, name t.name) ∧
        ∀ r ∈ s.rules, ∀ t ∈ r.rule.texts, text t := by
  have hempty := (hw "" (by decide)).1
  have hrules : EveryItem text name ((s.rules.map fun r => r.rule.toEntry).map Entry.toJson) ↔
      ∀ r ∈ s.rules, ∀ t ∈ r.rule.texts, text t := by
    rw [everyItem_iff, List.forall_mem_map, List.forall_mem_map]
    exact forall₂_congr fun r _ => hw.toEntry r.rule
  have hcustomer : (Customer.toJson { policyName := policyName s.policyName }).Every text name ↔
      text (policyName s.policyName) := by
    simp [Customer.toJson, Every, EveryField, hempty, hw.key "api_key" (by decide),
      hw.key "owner" (by decide), hw.key "mcp_upstream_url" (by decide),
      hw.key "policy_name" (by decide)]
  have hpolicy : (Policy.toJson ⟨policyName s.policyName, TaintPolicy.compileGates honor s.tools,
      s.rules.map fun r => r.rule.toEntry⟩).Every text name ↔
      text (policyName s.policyName) ∧ (∀ t ∈ s.tools, name t.name) ∧
        ∀ r ∈ s.rules, ∀ t ∈ r.rule.texts, text t := by
    rw [Policy.toJson, Every]
    simp only [EveryField, hrules, hw.compileGates, Every, hw.key "name" (by decide),
      hw.key "static_rules" (by decide), hw.key "taint_rules" (by decide), true_and, and_true]
  rw [Selection.compile, compileParts, PolicyFile.toJson, Every]
  simp only [EveryField, Every, EveryItem, List.map_cons, List.map_nil, hcustomer, hpolicy,
    hw.key "customers" (by decide), hw.key "policies" (by decide), true_and, and_true]
  exact and_iff_right_of_imp And.left

end words

end TaintPolicy
