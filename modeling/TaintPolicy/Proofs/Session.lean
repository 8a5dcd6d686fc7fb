import Mathlib.Data.List.Perm.Basic
import TaintPolicy.Selection

/-!
# Sessions

An operator changes a selection by one operation after the other. What every operation keeps, every
selection that a session comes to has. The lemmas say what each operation does to the names of the
chosen tools and which rules it leaves.
-/

namespace TaintPolicy

/-- What an operator can do to a selection. -/
inductive Operation
  | rename (name : String)
  | addTool (tool : Tool)
  | removeTool (name : String)
  | toggleTool (tool : Tool)
  | reorderTool (name target : String)
  | setGate (name : String) (gate : Gate)
  | reclassify (name : String) (taintClass : TaintClass)
  | clearTools
  | addRule (rule : NamedRule)
  | removeRule (id : String)
  | toggleRule (rule : NamedRule)
  | authorRule (assigner : Assigner) (rule : Rule)
  | selectTemplate (template : Template) (catalog : Catalog)
  | clearTemplate
  | reset

/-- The selection after an operation. A rule that may not be written by hand changes nothing. -/
def Operation.run (s : Selection) : Operation → Selection
  | rename name => s.rename name
  | addTool tool => (s.addTool tool).2
  | removeTool name => (s.removeTool name).2
  | toggleTool tool => (s.toggleTool tool).2
  | reorderTool name target => (s.reorderTool name target).2
  | setGate name gate => (s.setGate name gate).2
  | reclassify name taintClass => (s.reclassify name taintClass).2
  | clearTools => s.clearTools
  | addRule rule => (s.addRule rule).2
  | removeRule id => (s.removeRule id).2
  | toggleRule rule => (s.toggleRule rule).2
  | authorRule assigner rule =>
    match s.authorRule assigner rule with
    | .ok (_, s) => s
    | .error _ => s
  | selectTemplate template catalog => s.selectTemplate template catalog
  | clearTemplate => s.clearTemplate
  | reset => s.reset

/-- The selections that finitely many allowed operations make of those to start from. -/
inductive Reachable (start : Selection → Prop) (allowed : Operation → Prop) : Selection → Prop
  | start {s : Selection} : start s → Reachable start allowed s
  | step {s : Selection} {op : Operation} :
    Reachable start allowed s → allowed op → Reachable start allowed (op.run s)

theorem Reachable.invariant {start : Selection → Prop} {allowed : Operation → Prop}
    {Inv : Selection → Prop} (hstart : ∀ s, start s → Inv s)
    (hstep : ∀ s op, allowed op → Inv s → Inv (op.run s)) {s : Selection}
    (h : Reachable start allowed s) : Inv s := by
  induction h with
  | start h => exact hstart _ h
  | step _ ha ih => exact hstep _ _ ha ih

theorem Reachable.foldl_run {start : Selection → Prop} {allowed : Operation → Prop}
    {s : Selection} (h : Reachable start allowed s) {ops : List Operation}
    (ho : ∀ op ∈ ops, allowed op) : Reachable start allowed (ops.foldl Operation.run s) := by
  induction ops generalizing s with
  | nil => exact h
  | cons op ops ih =>
    exact ih (.step h (ho op (by simp))) fun op' hm => ho op' (by simp [hm])

/-- The list without the entries that share their key with `a`; with `a` at its end if there are
none. -/
def toggled {α : Type} (key : α → String) (as : List α) (a : α) : List α :=
  if key a ∈ as.map key then as.filter fun b => key b ≠ key a else as ++ [a]

namespace Selection

theorem hasTool_iff {s : Selection} {name : String} : s.hasTool name = true ↔ name ∈ s.toolNames := by
  simp only [hasTool, toolNames, List.any_eq_true, List.mem_map, decide_eq_true_eq]

theorem hasRule_iff {s : Selection} {id : String} : s.hasRule id = true ↔ id ∈ s.ruleIds := by
  simp only [hasRule, ruleIds, List.any_eq_true, List.mem_map, decide_eq_true_eq]

section tools

theorem addTool_of_mem {s : Selection} {t : Tool} (h : t.name ∈ s.toolNames) :
    (s.addTool t).2 = s := by
  rw [addTool, if_pos (hasTool_iff.mpr h)]

theorem addTool_of_notMem {s : Selection} {t : Tool} (h : t.name ∉ s.toolNames) :
    (s.addTool t).2 = { s with tools := s.tools ++ [⟨t, .allow⟩] } := by
  rw [addTool, if_neg fun hs => h (hasTool_iff.mp hs)]

theorem toolNames_addTool (s : Selection) (t : Tool) :
    (s.addTool t).2.toolNames =
      if s.hasTool t.name then s.toolNames else s.toolNames ++ [t.name] := by
  simp only [addTool]
  split <;> simp [toolNames, Selected.name]

theorem toolNames_removeTool (s : Selection) (name : String) :
    (s.removeTool name).2.toolNames = s.toolNames.filter (· ≠ name) := by
  simp only [removeTool, toolNames, List.filter_map]
  rfl

/-- Changing a tool keeps what the change leaves alone in each. -/
theorem map_changeFirst {α : Type} {f : Selected → α} {change : Selected → Selected}
    (h : ∀ t, f (change t) = f t) (name : String) (ts : List Selected) :
    (changeFirst name change ts).map f = ts.map f := by
  induction ts with
  | nil => rfl
  | cons t ts ih =>
    simp only [changeFirst]
    split
    · simp [h]
    · simp [ih]

theorem toolNames_setGate (s : Selection) (name : String) (gate : Gate) :
    (s.setGate name gate).2.toolNames = s.toolNames := by
  apply map_changeFirst
  intro t
  rfl

theorem toolNames_reclassify (s : Selection) (name : String) (c : TaintClass) :
    (s.reclassify name c).2.toolNames = s.toolNames := by
  apply map_changeFirst
  intro t
  rfl

/-- Moving a tool neither loses nor repeats one. -/
theorem tools_reorderTool_perm (s : Selection) (name target : String) :
    (s.reorderTool name target).2.tools.Perm s.tools := by
  simp only [reorderTool]
  split
  · next i j hi hj =>
    obtain ⟨hlt, -, -⟩ := List.findIdx?_eq_some_iff_getElem.mp hi
    obtain ⟨hlt', -, -⟩ := List.findIdx?_eq_some_iff_getElem.mp hj
    rw [List.getElem?_eq_getElem hlt]
    have hj' : j ≤ (s.tools.eraseIdx i).length := by
      rw [List.length_eraseIdx_of_lt hlt]
      omega
    exact (List.perm_insertIdx _ _ hj').trans (List.getElem_cons_eraseIdx_perm hlt)
  · exact .refl _

theorem toolNames_reorderTool_perm (s : Selection) (name target : String) :
    (s.reorderTool name target).2.toolNames.Perm s.toolNames :=
  (s.tools_reorderTool_perm name target).map Selected.name

theorem mem_toolNames_addTool {s : Selection} {t : Tool} {name : String}
    (h : name ∈ (s.addTool t).2.toolNames) : name ∈ s.toolNames ∨ name = t.name := by
  rw [toolNames_addTool] at h
  split at h
  · exact .inl h
  · simpa using h

theorem mem_toolNames_addTools {s : Selection} {ts : List Tool} {name : String}
    (h : name ∈ (s.addTools ts).toolNames) : name ∈ s.toolNames ∨ ∃ t ∈ ts, name = t.name := by
  induction ts generalizing s with
  | nil => exact .inl h
  | cons t ts ih =>
    rcases ih h with h | ⟨t', ht, rfl⟩
    · rcases mem_toolNames_addTool h with h | rfl
      · exact .inl h
      · exact .inr ⟨t, by simp, rfl⟩
    · exact .inr ⟨t', by simp [ht], rfl⟩

end tools

section frames

/-! Operations on tools leave the rules alone, operations on rules leave the tools alone, and both
leave the policy name alone. -/

theorem rules_addTool (s : Selection) (t : Tool) : (s.addTool t).2.rules = s.rules := by
  simp only [addTool]
  split <;> rfl

theorem rules_toggleTool (s : Selection) (t : Tool) : (s.toggleTool t).2.rules = s.rules := by
  simp only [toggleTool]
  split
  · rfl
  · exact s.rules_addTool t

theorem rules_reorderTool (s : Selection) (name target : String) :
    (s.reorderTool name target).2.rules = s.rules := by
  simp only [reorderTool]
  split
  · split <;> rfl
  · rfl

theorem tools_addRule (s : Selection) (r : NamedRule) : (s.addRule r).2.tools = s.tools := by
  simp only [addRule]
  split <;> rfl

theorem tools_toggleRule (s : Selection) (r : NamedRule) : (s.toggleRule r).2.tools = s.tools := by
  simp only [toggleRule]
  split
  · rfl
  · exact s.tools_addRule r

theorem policyName_addTool (s : Selection) (t : Tool) :
    (s.addTool t).2.policyName = s.policyName := by
  simp only [addTool]
  split <;> rfl

theorem policyName_toggleRule (s : Selection) (r : NamedRule) :
    (s.toggleRule r).2.policyName = s.policyName := by
  simp only [toggleRule, addRule, removeRule]
  split <;> rfl

theorem authorRule_eq_ok {s s' : Selection} {assigner : Assigner} {r : Rule} {named : NamedRule}
    (h : s.authorRule assigner r = .ok (named, s')) : s' = s.pushRule named := by
  simp only [authorRule] at h
  cases hd : r.targetDefect? with
  | none => rw [hd] at h; cases h; rfl
  | some defect => rw [hd] at h; cases h

end frames

section toggles

variable (s : Selection)

theorem toggleRule_eq (r : NamedRule) :
    s.toggleRule r = (!s.hasRule r.id, { s with rules := toggled NamedRule.id s.rules r }) := by
  have hmem : r.id ∈ s.rules.map NamedRule.id ↔ s.hasRule r.id = true := hasRule_iff.symm
  rw [toggleRule, toggled, addRule, removeRule]
  cases h : s.hasRule r.id <;> simp [hmem, h]

theorem toggleTool_eq (t : Tool) :
    s.toggleTool t =
      (!s.hasTool t.name, { s with tools := toggled Selected.name s.tools ⟨t, .allow⟩ }) := by
  have hmem : Selected.name ⟨t, .allow⟩ ∈ s.tools.map Selected.name ↔ s.hasTool t.name = true :=
    hasTool_iff.symm
  rw [toggleTool, toggled, addTool, removeTool]
  cases h : s.hasTool t.name <;> simp [hmem, h]
  rfl

end toggles

section rules

theorem mem_rules_addRule {s : Selection} {r x : NamedRule} (h : x ∈ (s.addRule r).2.rules) :
    x ∈ s.rules ∨ x = r := by
  simp only [addRule] at h
  split at h
  · exact .inl h
  · simpa using h

end rules

end Selection

namespace Operation

/-- The tools that an operation may add. -/
def offeredTools : Operation → List Tool
  | addTool tool | toggleTool tool => [tool]
  | selectTemplate template catalog => template.allowedTools.filterMap catalog.get?
  | _ => []

/-- The rules that an operation may add. -/
def offeredRules (s : Selection) : Operation → List NamedRule
  | addRule rule | toggleRule rule => [rule]
  | selectTemplate template _ => template.rules
  | authorRule assigner rule =>
    match s.authorRule assigner rule with
    | .ok (named, _) => [named]
    | .error _ => []
  | _ => []

/-- Every tool that is chosen after an operation was chosen before, or is one that it offers. -/
theorem mem_toolNames_run {op : Operation} {s : Selection} {name : String}
    (h : name ∈ (op.run s).toolNames) :
    name ∈ s.toolNames ∨ ∃ t ∈ op.offeredTools, name = t.name := by
  cases op with
  | addTool tool => simpa [offeredTools] using Selection.mem_toolNames_addTool h
  | removeTool name' =>
    rw [run, Selection.toolNames_removeTool] at h
    exact .inl (List.mem_filter.mp h).1
  | toggleTool tool =>
    rw [run, Selection.toggleTool] at h
    split at h
    · rw [Selection.toolNames_removeTool] at h
      exact .inl (List.mem_filter.mp h).1
    · simpa [offeredTools] using Selection.mem_toolNames_addTool h
  | reorderTool name' target => exact .inl ((s.toolNames_reorderTool_perm name' target).subset h)
  | setGate name' gate => exact .inl (s.toolNames_setGate name' gate ▸ h)
  | reclassify name' c => exact .inl (s.toolNames_reclassify name' c ▸ h)
  | clearTools => cases h
  | selectTemplate template catalog =>
    rcases Selection.mem_toolNames_addTools (s := s.clearTools) h with h | h
    · cases h
    · exact .inr h
  | addRule rule => exact .inl (by simpa [run, Selection.toolNames, s.tools_addRule] using h)
  | toggleRule rule => exact .inl (by simpa [run, Selection.toolNames, s.tools_toggleRule] using h)
  | authorRule assigner rule =>
    rw [run] at h
    split at h
    · next ha =>
      rw [Selection.authorRule_eq_ok ha] at h
      exact .inl h
    · exact .inl h
  | rename name' => exact .inl h
  | removeRule id => exact .inl h
  | clearTemplate => exact .inl h
  | reset => cases h

/-- Every rule that is chosen after an operation was chosen before, or is one that it offers. -/
theorem mem_rules_run {op : Operation} {s : Selection} {r : NamedRule}
    (h : r ∈ (op.run s).rules) : r ∈ s.rules ∨ r ∈ op.offeredRules s := by
  cases op with
  | addRule rule => simpa [offeredRules] using Selection.mem_rules_addRule h
  | removeRule id => exact .inl (List.mem_filter.mp h).1
  | toggleRule rule =>
    rw [run, Selection.toggleRule] at h
    split at h
    · exact .inl (List.mem_filter.mp h).1
    · simpa [offeredRules] using Selection.mem_rules_addRule h
  | authorRule assigner rule =>
    rw [run] at h
    rw [offeredRules]
    split at h
    · next ha =>
      rw [Selection.authorRule_eq_ok ha, Selection.pushRule] at h
      exact List.mem_append.mp h
    · exact .inl h
  | selectTemplate template catalog => exact .inr h
  | addTool tool => exact .inl (s.rules_addTool tool ▸ h)
  | toggleTool tool => exact .inl (s.rules_toggleTool tool ▸ h)
  | reorderTool name target => exact .inl (s.rules_reorderTool name target ▸ h)
  | rename name => exact .inl h
  | removeTool name => exact .inl h
  | setGate name gate => exact .inl h
  | reclassify name c => exact .inl h
  | clearTools => exact .inl h
  | clearTemplate => cases h
  | reset => cases h

end Operation

end TaintPolicy
