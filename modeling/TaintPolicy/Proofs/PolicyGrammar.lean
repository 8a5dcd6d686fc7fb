import TaintPolicy.Proofs.PlainValues
import TaintPolicy.Proofs.Restoration

/-!
# The grammar of policy documents

What the enforcement runtime accepts as a policy document, stated over JSON values alone: the fields
that an object has to have and may have, with what each of them may hold. Every compiled file lies in
this grammar and holds no `null`, whatever the selection holds. Unset fields are left out one by one,
so the fields of each object follow the list of its names in order.
-/

namespace TaintPolicy

namespace Json

/-- No `null` occurs in the value, at any depth. -/
inductive NullFree : Json → Prop
  | bool (b : Bool) : NullFree (bool b)
  | num (n : Number) : NullFree (num n)
  | str (s : String) : NullFree (str s)
  | arr {vs : List Json} : (∀ v ∈ vs, NullFree v) → NullFree (arr vs)
  | obj {fs : Fields Json} : (∀ f ∈ fs, NullFree f.2) → NullFree (obj fs)

/-- An object that has the required names, no name twice, and only fields that a grammar lists under
their names. -/
inductive IsRecord (required : List String) (grammar : Fields (Json → Prop)) : Json → Prop
  | obj {fs : Fields Json} :
    (Fields.names fs).Nodup → (∀ name ∈ required, name ∈ Fields.names fs) →
    (∀ f ∈ fs, ∃ lawful, (f.1, lawful) ∈ grammar ∧ lawful f.2) → IsRecord required grammar (obj fs)

/-- One of a closed set of words. -/
def IsWord {α : Type} (text : α → String) (v : Json) : Prop := ∃ a, v = str (text a)

def IsFilledText (v : Json) : Prop := ∃ s, s ≠ "" ∧ v = str s

def IsText (v : Json) : Prop := ∃ s, v = str s

/-- A number that an unsigned 64-bit word holds. -/
def IsCount (v : Json) : Prop := ∃ n, v = ofWord n

def IsListOf (item : Json → Prop) (v : Json) : Prop := ∃ vs, v = arr vs ∧ ∀ u ∈ vs, item u

def IsFilledListOf (item : Json → Prop) (v : Json) : Prop :=
  ∃ vs, vs ≠ [] ∧ v = arr vs ∧ ∀ u ∈ vs, item u

/-- A list of exactly one value. -/
def IsOnly (item : Json → Prop) (v : Json) : Prop := ∃ u, v = arr [u] ∧ item u

/-- An object with any names, each once, whose values are alike. -/
inductive IsMapOf (item : Json → Prop) : Json → Prop
  | obj {fs : Fields Json} :
    (Fields.names fs).Nodup → (∀ f ∈ fs, item f.2) → IsMapOf item (obj fs)

end Json

namespace Grammar

open Json

def IsStep : Json → Prop := IsRecord ["class"] [("class", IsWord TaintClass.text)]

/-- Names at least one class. -/
def IsPredicate (v : Json) : Prop :=
  IsRecord [] [
    ("session_has_class", IsWord TaintClass.text),
    ("current_tool_class", IsWord TaintClass.text)] v ∧ v ≠ obj []

def IsCondition : Json → Prop :=
  IsRecord [] [("AND", IsFilledListOf IsPredicate), ("OR", IsFilledListOf IsPredicate)]

def IsSequence : Json → Prop :=
  IsRecord ["type", "steps"] [
    ("type", (· = str "sequence")),
    ("steps", IsListOf IsStep),
    ("max_distance", IsCount)]

def IsLogic : Json → Prop :=
  IsRecord ["type", "condition"] [("type", (· = str "logic")), ("condition", IsCondition)]

def IsTaintRule : Json → Prop :=
  IsRecord ["action"] [
    ("action", IsWord TaintAction.text),
    ("tool", IsFilledText),
    ("tool_class", IsWord TaintClass.text),
    ("tag", IsFilledText),
    ("forbidden_tags", IsFilledListOf IsText),
    ("error", IsFilledText),
    ("pattern", fun v => IsSequence v ∨ IsLogic v)]

/-- The stub of a customer, blank but for the policy that it points at. -/
def IsCustomer (name : String) : Json → Prop :=
  IsRecord ["api_key", "owner", "mcp_upstream_url", "policy_name"] [
    ("api_key", (· = str "")),
    ("owner", (· = str "")),
    ("mcp_upstream_url", (· = str "")),
    ("policy_name", (· = str name))]

def IsPolicy (name : String) : Json → Prop :=
  IsRecord ["name", "static_rules", "taint_rules"] [
    ("name", (· = str name)),
    ("static_rules", IsMapOf (IsWord Gate.text)),
    ("taint_rules", IsListOf IsTaintRule)]

/-- A document with one policy under a name, and one customer for it. -/
def IsPolicyDocument (name : String) : Json → Prop :=
  IsRecord ["customers", "policies"] [
    ("customers", IsOnly (IsCustomer name)),
    ("policies", IsOnly (IsPolicy name))]

end Grammar

section depths

namespace Json

theorem IsPlain.nullFree {depth : Nat} {v : Json} (h : v.IsPlain depth) : v.NullFree := by
  induction h with
  | str s => exact .str s
  | count n => exact .num _
  | arr _ ih => exact .arr ih
  | obj _ _ ih => exact .obj ih

/-- Every lawful value is plain and nested at most so deep. -/
def Bounds (depth : Nat) (lawful : Json → Prop) : Prop := ∀ v, lawful v → IsPlain depth v

variable {depth : Nat} {item : Json → Prop}

theorem bounds_isWord {α : Type} (text : α → String) : Bounds depth (IsWord text) := by
  rintro _ ⟨a, rfl⟩
  exact .str _

theorem bounds_eq_str (s : String) : Bounds depth (· = str s) := by
  rintro _ rfl
  exact .str s

theorem bounds_isFilledText : Bounds depth IsFilledText := by
  rintro _ ⟨s, -, rfl⟩
  exact .str s

theorem bounds_isText : Bounds depth IsText := by
  rintro _ ⟨s, rfl⟩
  exact .str s

theorem bounds_isCount : Bounds depth IsCount := by
  rintro _ ⟨n, rfl⟩
  exact .count n

theorem bounds_isListOf (h : Bounds depth item) : Bounds (depth + 1) (IsListOf item) := by
  rintro _ ⟨vs, rfl, hvs⟩
  exact .arr fun v hv => h v (hvs v hv)

theorem bounds_isFilledListOf (h : Bounds depth item) :
    Bounds (depth + 1) (IsFilledListOf item) := by
  rintro _ ⟨vs, -, rfl, hvs⟩
  exact .arr fun v hv => h v (hvs v hv)

theorem bounds_isOnly (h : Bounds depth item) : Bounds (depth + 1) (IsOnly item) := by
  rintro _ ⟨u, rfl, hu⟩
  exact .arr fun v hv => List.mem_singleton.mp hv ▸ h u hu

theorem bounds_isMapOf (h : Bounds depth item) : Bounds (depth + 1) (IsMapOf item) := by
  rintro _ ⟨hn, hfs⟩
  exact .obj hn fun f hf => h f.2 (hfs f hf)

/-- What bounds each field bounds the object, one level up. -/
theorem bounds_isRecord {required : List String} {grammar : Fields (Json → Prop)}
    (h : ∀ g ∈ grammar, Bounds depth g.2) : Bounds (depth + 1) (IsRecord required grammar) := by
  rintro _ ⟨hn, -, hfs⟩
  refine .obj hn fun f hf => ?_
  obtain ⟨lawful, hm, hv⟩ := hfs f hf
  exact h _ hm f.2 hv

end Json

namespace Grammar

open Json

theorem bounds_isStep : Bounds 2 IsStep :=
  bounds_isRecord (by simp [bounds_isWord])

theorem bounds_isPredicate : Bounds 1 IsPredicate := by
  rintro v ⟨h, -⟩
  exact bounds_isRecord (by simp [bounds_isWord]) v h

theorem bounds_isCondition : Bounds 3 IsCondition :=
  bounds_isRecord (by simp [bounds_isFilledListOf bounds_isPredicate])

theorem bounds_isSequence : Bounds 4 IsSequence :=
  bounds_isRecord (by simp [bounds_eq_str, bounds_isListOf bounds_isStep, bounds_isCount])

theorem bounds_isLogic : Bounds 4 IsLogic :=
  bounds_isRecord (by simp [bounds_eq_str, bounds_isCondition])

theorem bounds_isTaintRule : Bounds 5 IsTaintRule := by
  have hp : Bounds 4 fun v => IsSequence v ∨ IsLogic v := fun v h =>
    h.elim (bounds_isSequence v) (bounds_isLogic v)
  exact bounds_isRecord
    (by simp [bounds_isWord, bounds_isFilledText, bounds_isFilledListOf bounds_isText, hp])

theorem bounds_isPolicyDocument (name : String) : Bounds 9 (IsPolicyDocument name) := by
  have hc : Bounds 7 (IsCustomer name) := bounds_isRecord (by simp [bounds_eq_str])
  have hp : Bounds 7 (IsPolicy name) := bounds_isRecord
    (by simp [bounds_eq_str, bounds_isMapOf (bounds_isWord _), bounds_isListOf bounds_isTaintRule])
  exact bounds_isRecord (by simp [bounds_isOnly hc, bounds_isOnly hp])

end Grammar

end depths

section fields

/-- Lists fields in the order of a grammar, leaving some out. -/
inductive Fields.Follows : Fields (Json → Prop) → Fields Json → Prop
  | nil : Follows [] []
  | skip {name : String} {lawful : Json → Prop} {grammar : Fields (Json → Prop)}
    {fs : Fields Json} : Follows grammar fs → Follows ((name, lawful) :: grammar) fs
  | field {name : String} {lawful : Json → Prop} {v : Json} {grammar : Fields (Json → Prop)}
    {fs : Fields Json} : lawful v → Follows grammar fs →
    Follows ((name, lawful) :: grammar) ((name, v) :: fs)

namespace Fields.Follows

variable {name : String} {lawful : Json → Prop} {grammar : Fields (Json → Prop)} {fs : Fields Json}

theorem names_sublist (h : Follows grammar fs) : (names fs).Sublist (names grammar) := by
  induction h with
  | nil => exact .slnil
  | skip _ ih => exact ih.cons _
  | field _ _ ih => exact ih.cons_cons _

theorem exists_lawful (h : Follows grammar fs) {f : String × Json} (hf : f ∈ fs) :
    ∃ lawful, (f.1, lawful) ∈ grammar ∧ lawful f.2 := by
  induction h with
  | nil => cases hf
  | skip _ ih =>
    obtain ⟨lawful, hm, hv⟩ := ih hf
    exact ⟨lawful, List.mem_cons_of_mem _ hm, hv⟩
  | field hv _ ih =>
    rcases List.mem_cons.mp hf with rfl | hf
    · exact ⟨_, List.mem_cons_self, hv⟩
    · obtain ⟨lawful, hm, hv⟩ := ih hf
      exact ⟨lawful, List.mem_cons_of_mem _ hm, hv⟩

theorem isRecord {required : List String} (h : Follows grammar fs) (hn : (names grammar).Nodup)
    (hr : ∀ name ∈ required, name ∈ names fs) : Json.IsRecord required grammar (.obj fs) :=
  .obj (h.names_sublist.nodup hn) hr fun _ hf => h.exists_lawful hf

theorem fieldWhen {v : Option Json} (hv : ∀ u, v = some u → lawful u) (h : Follows grammar fs) :
    Follows ((name, lawful) :: grammar) (Json.fieldWhen name v ++ fs) := by
  cases v with
  | none => exact .skip h
  | some u => exact .field (hv u rfl) h

/-- A list that is left out where it is empty is filled where it stands. -/
theorem fieldUnlessEmpty {item : Json → Prop} {vs : List Json} (hv : ∀ u ∈ vs, item u)
    (h : Follows grammar fs) :
    Follows ((name, Json.IsFilledListOf item) :: grammar) (Json.fieldUnlessEmpty name vs ++ fs) := by
  cases vs with
  | nil => exact .skip h
  | cons v vs => exact .field ⟨v :: vs, List.cons_ne_nil v vs, rfl, hv⟩ h

end Fields.Follows

end fields

section written

open Json Grammar

theorem isWord_of_map_toJson {α : Type} {text : α → String} {a : Option α} {v : Json}
    (h : a.map (fun a => str (text a)) = some v) : IsWord text v := by
  obtain ⟨a, -, rfl⟩ := Option.map_eq_some_iff.mp h
  exact ⟨a, rfl⟩

theorem isFilledText_of_nonEmpty {s : Option String} {v : Json}
    (h : (nonEmpty s).map str = some v) : IsFilledText v := by
  obtain ⟨s', hs, rfl⟩ := Option.map_eq_some_iff.mp h
  exact ⟨s', by simpa using (Option.filter_eq_some_iff.mp hs).2, rfl⟩

theorem isStep_stepToJson (c : TaintClass) : IsStep (stepToJson c) :=
  Fields.Follows.isRecord (.field ⟨c, rfl⟩ .nil) (by decide) (by simp)

theorem isPredicate_toJson {p : Predicate} (h : p.isEmpty = false) :
    IsPredicate (p.toJson .snake) := by
  constructor
  · rw [Predicate.toJson, ← List.append_nil (fieldWhen Spelling.snake.currentKey _)]
    refine Fields.Follows.isRecord ?_ (by decide) (by simp)
    exact .fieldWhen (fun _ => isWord_of_map_toJson) (.fieldWhen (fun _ => isWord_of_map_toJson)
      .nil)
  · intro he
    obtain ⟨session, current⟩ := p
    cases session <;> cases current <;> simp [Predicate.toJson, Predicate.isEmpty] at he h

theorem isPredicate_of_mem_entryBranch {branch : Option (List Predicate)} {v : Json}
    (h : v ∈ (entryBranch branch).map (Predicate.toJson .snake)) : IsPredicate v := by
  obtain ⟨p, hp, rfl⟩ := List.mem_map.mp h
  have hne : p.isEmpty = false := by simpa using (List.mem_filter.mp hp).2
  exact isPredicate_toJson hne

theorem isSequence_toJson (p : SequencePattern) : IsSequence (EntryPattern.sequence p).toJson := by
  have hs : IsListOf IsStep (arr (p.steps.map stepToJson)) := by
    refine ⟨_, rfl, fun v hv => ?_⟩
    obtain ⟨c, -, rfl⟩ := List.mem_map.mp hv
    exact isStep_stepToJson c
  have hd : ∀ u, p.maxDistance.map ofWord = some u → IsCount u := by
    intro u hu
    obtain ⟨n, -, rfl⟩ := Option.map_eq_some_iff.mp hu
    exact ⟨n, rfl⟩
  rw [EntryPattern.toJson, SequencePattern.toFields, ← List.append_nil (fieldWhen _ _)]
  refine Fields.Follows.isRecord ?_ (by decide) (by simp)
  exact .field rfl (.field hs (.fieldWhen hd .nil))

theorem isLogic_toJson (p : LogicPattern) : IsLogic (Pattern.logic p).toEntry.toJson := by
  have hc : IsCondition (obj (
      fieldUnlessEmpty "AND" ((entryBranch p.and).map (Predicate.toJson .snake)) ++
      fieldUnlessEmpty "OR" ((entryBranch p.or).map (Predicate.toJson .snake)))) := by
    rw [← List.append_nil (fieldUnlessEmpty "OR" _)]
    refine Fields.Follows.isRecord ?_ (by decide) (by simp)
    exact .fieldUnlessEmpty (fun _ => isPredicate_of_mem_entryBranch)
      (.fieldUnlessEmpty (fun _ => isPredicate_of_mem_entryBranch) .nil)
  exact Fields.Follows.isRecord (.field rfl (.field hc .nil)) (by decide) (by simp)

/-- The entry of any rule, whatever empty texts, branches and predicates the rule holds. -/
theorem isTaintRule_toEntry (r : Rule) : IsTaintRule r.toEntry.toJson := by
  have ht : ∀ u ∈ r.forbiddenTags.map str, IsText u := by
    intro u hu
    obtain ⟨tag, -, rfl⟩ := List.mem_map.mp hu
    exact ⟨tag, rfl⟩
  have hp : ∀ u, (r.pattern.map Pattern.toEntry).map EntryPattern.toJson = some u →
      IsSequence u ∨ IsLogic u := by
    intro u hu
    rw [Option.map_map] at hu
    obtain ⟨p, -, rfl⟩ := Option.map_eq_some_iff.mp hu
    cases p with
    | sequence p => exact .inl (isSequence_toJson p)
    | logic p => exact .inr (isLogic_toJson p)
  rw [Entry.toJson, Entry.toFields, ← List.append_nil (fieldWhen "pattern" _)]
  refine Fields.Follows.isRecord ?_ (by decide) (by simp)
  exact .field ⟨r.action, rfl⟩
    (.fieldWhen (fun _ => isFilledText_of_nonEmpty)
    (.fieldWhen (fun _ => isWord_of_map_toJson)
    (.fieldWhen (fun _ => isFilledText_of_nonEmpty)
    (.fieldUnlessEmpty ht
    (.fieldWhen (fun _ => isFilledText_of_nonEmpty)
    (.fieldWhen hp .nil))))))

theorem isMapOf_toJson (m : KeyMap Gate) : IsMapOf (IsWord Gate.text) (m.toJson Gate.toJson) := by
  refine .obj ?_ fun f hf => ?_
  · have hn : Fields.names (m.entries.map fun e => (e.1, e.2.toJson)) = Fields.names m.entries := by
      rw [Fields.names, List.map_map]
      rfl
    exact hn ▸ m.nodup_names
  · obtain ⟨g, -, rfl⟩ := List.mem_map.mp hf
    exact ⟨g.2, rfl⟩

theorem isCustomer_toJson (name : String) : IsCustomer name (Customer.toJson { policyName := name }) :=
  Fields.Follows.isRecord (.field rfl (.field rfl (.field rfl (.field rfl .nil)))) (by simp)
    (by simp)

theorem isPolicy_toJson (name : String) (gates : KeyMap Gate) (rules : List NamedRule) :
    IsPolicy name (Policy.toJson ⟨name, gates, rules.map fun r => r.rule.toEntry⟩) := by
  have hr : IsListOf IsTaintRule
      (arr ((rules.map fun r => r.rule.toEntry).map Entry.toJson)) := by
    refine ⟨_, rfl, fun v hv => ?_⟩
    rw [List.map_map] at hv
    obtain ⟨r, -, rfl⟩ := List.mem_map.mp hv
    exact isTaintRule_toEntry r.rule
  exact Fields.Follows.isRecord (.field rfl (.field (isMapOf_toJson gates) (.field hr .nil)))
    (by simp) (by simp)

theorem isPolicyDocument_compile (honor : Bool) (s : Selection) :
    IsPolicyDocument (policyName s.policyName) (s.compile honor).toJson :=
  Fields.Follows.isRecord
    (.field ⟨_, rfl, isCustomer_toJson _⟩ (.field ⟨_, rfl, isPolicy_toJson _ _ s.rules⟩ .nil))
    (by simp) (by simp)

end written

theorem trim_policyName (requested : String) : trim (policyName requested) = policyName requested := by
  by_cases h : trim requested = ""
  · rw [policyName, if_pos h]
    decide
  · rw [policyName, if_neg h, trim_trim]

/-- Whatever a selection holds, its compiled document lies in the grammar of the runtime under one
name for customer and policy, which is not empty and has no blanks around it. The document holds no
`null`, and its taint rules are the entries of the selected rules in their order. -/
theorem compiled_document_is_lawful (honor : Bool) (s : Selection) :
    (s.compile honor).toJson.NullFree ∧
    ∃ name, name ≠ "" ∧ trim name = name ∧
      Grammar.IsPolicyDocument name (s.compile honor).toJson ∧
      ∃ policy, (s.compile honor).toJson.get? "policies" = some (.arr [policy]) ∧
        policy.get? "taint_rules" = some (.arr (s.rules.map fun r => r.rule.toEntry.toJson)) := by
  have hd := isPolicyDocument_compile honor s
  refine ⟨(Grammar.bounds_isPolicyDocument _ _ hd).nullFree, policyName s.policyName,
    policyName_ne_empty _, trim_policyName _, hd, _, rfl, ?_⟩
  simp [Policy.toJson, Fields.find?]

end TaintPolicy
