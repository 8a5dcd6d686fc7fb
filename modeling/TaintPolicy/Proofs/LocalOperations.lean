import TaintPolicy.Proofs.RuleIds
import TaintPolicy.Proofs.Session

/-!
# Local operations

An operation that fails changes nothing. One on tools leaves all but the tools alone, one on rules
leaves the tools and the name alone. No operation but the choice of a template puts chosen rules
into another order or edits one: the rules that it keeps stand first, as they were, and what it adds
comes after them. The same holds for the names of the tools, unless a tool is moved. It does not
matter here whether names or ids are distinct.
-/

namespace TaintPolicy

/-- Entries were dropped, and at most `n` others came at the end. -/
def GrowsBy {α : Type} (n : Nat) (before after : List α) : Prop :=
  ∃ kept new, after = kept ++ new ∧ kept.Sublist before ∧ new.length ≤ n

namespace GrowsBy

variable {α : Type} {as bs cs : List α} {m n : Nat}

theorem refl (as : List α) : GrowsBy 0 as as :=
  ⟨as, [], (List.append_nil as).symm, .refl as, Nat.le_refl 0⟩

/-- What was new may be dropped again, but nothing new comes before what was kept. -/
theorem trans (h : GrowsBy m as bs) (h' : GrowsBy n bs cs) : GrowsBy (m + n) as cs := by
  obtain ⟨kept, new, rfl, hkept, hnew⟩ := h
  obtain ⟨kept', new', rfl, hkept', hnew'⟩ := h'
  obtain ⟨old, fresh, rfl, hold, hfresh⟩ := List.sublist_append_iff.mp hkept'
  refine ⟨old, fresh ++ new', List.append_assoc .., hold.trans hkept, ?_⟩
  rw [List.length_append]
  exact Nat.add_le_add (Nat.le_trans hfresh.length_le hnew) hnew'

theorem of_filter {p q : α → Bool} (h : bs.length ≤ n) :
    GrowsBy n as (as.filter p ++ bs.filter q) :=
  ⟨_, _, rfl, List.filter_sublist, Nat.le_trans (List.length_filter_le q bs) h⟩

end GrowsBy

section lists

variable {α : Type} {key : α → String} {as : List α}

theorem filter_key_of_notMem {x : String} (h : x ∉ as.map key) :
    as.filter (fun a => key a ≠ x) = as := by
  rw [List.filter_eq_self]
  intro a ha
  exact decide_eq_true fun he => h (he ▸ List.mem_map_of_mem ha)

theorem toggled_eq (a : α) :
    toggled key as a =
      as.filter (fun b => key b ≠ key a) ++ [a].filter fun b => key b ∉ as.map key := by
  rw [toggled, List.filter_singleton]
  split
  · next h => simp [h]
  · next h => rw [filter_key_of_notMem h, decide_eq_true h]; rfl

/-- What stays as it is keeps all that it has and takes nothing. -/
theorem eq_filter_append {bs offered : List α} {keeps takes : α → Bool} (h : bs = as)
    (hkeep : ∀ a, keeps a = true) (hnone : offered = []) :
    bs = as.filter keeps ++ offered.filter takes := by
  rw [h, hnone, List.filter_eq_self.mpr fun a _ => hkeep a]
  exact (List.append_nil as).symm

end lists

namespace Operation

/-- The operation says that it could not be carried out. -/
def Fails (s : Selection) : Operation → Prop
  | addTool tool => (s.addTool tool).1 = false
  | removeTool name => (s.removeTool name).1 = false
  | reorderTool name target => (s.reorderTool name target).1 = false
  | setGate name gate => (s.setGate name gate).1 = false
  | reclassify name taintClass => (s.reclassify name taintClass).1 = false
  | addRule rule => (s.addRule rule).1 = false
  | removeRule id => (s.removeRule id).1 = false
  | authorRule assigner rule => ∃ fault, s.authorRule assigner rule = .error fault
  | _ => False

def OnTools : Operation → Prop
  | addTool _ | removeTool _ | toggleTool _ | reorderTool _ _ | setGate _ _ | reclassify _ _
  | clearTools => True
  | _ => False

def OnRules : Operation → Prop
  | addRule _ | removeRule _ | toggleRule _ | authorRule _ _ | clearTemplate => True
  | _ => False

/-- Starts over from a template. -/
def Switches : Operation → Prop
  | selectTemplate _ _ => True
  | _ => False

def Reorders : Operation → Prop
  | reorderTool _ _ => True
  | _ => False

/-- A chosen rule is still chosen after the operation, which is none that starts over. -/
def keepsRule : Operation → NamedRule → Bool
  | removeRule id, r => r.id ≠ id
  | toggleRule rule, r => r.id ≠ rule.id
  | clearTemplate, _ | reset, _ => false
  | _, _ => true

/-- A tool of that name is still chosen after the operation, which is none that starts over. -/
def keepsTool : Operation → String → Bool
  | removeTool name, n => n ≠ name
  | toggleTool tool, n => n ≠ tool.name
  | clearTools, _ | reset, _ => false
  | _, _ => true

end Operation

namespace Selection

section failure

variable {s : Selection}

theorem changeFirst_of_notMem {name : String} {change : Selected → Selected} {ts : List Selected}
    (h : name ∉ ts.map Selected.name) : changeFirst name change ts = ts := by
  induction ts with
  | nil => rfl
  | cons t ts ih =>
    rw [List.map_cons, List.mem_cons, not_or] at h
    rw [changeFirst, if_neg (Ne.symm h.1), ih h.2]

theorem reorderTool_of_fails {name target : String} (h : (s.reorderTool name target).1 = false) :
    (s.reorderTool name target).2 = s := by
  rw [reorderTool] at h ⊢
  split
  · next hi hj =>
    rw [hi, hj] at h
    split
    · next ht => simp [ht] at h
    · rfl
  · rfl

/-- An operation that fails has no effect. -/
theorem run_of_fails {op : Operation} (h : op.Fails s) : op.run s = s := by
  have htool : ∀ {name : String}, s.hasTool name = false → name ∉ s.toolNames :=
    fun h hm => Bool.eq_false_iff.mp h (hasTool_iff.mpr hm)
  have hrule : ∀ {id : String}, s.hasRule id = false → id ∉ s.ruleIds :=
    fun h hm => Bool.eq_false_iff.mp h (hasRule_iff.mpr hm)
  cases op with
  | addTool tool =>
    by_cases hm : tool.name ∈ s.toolNames
    · exact addTool_of_mem hm
    · simp [Operation.Fails, addTool, hasTool_iff, hm] at h
  | removeTool name =>
    have hkeep := filter_key_of_notMem (htool h)
    rw [Operation.run, removeTool, hkeep]
  | reorderTool name target => exact reorderTool_of_fails h
  | setGate name gate =>
    rw [Operation.run, setGate, changeFirst_of_notMem (htool h)]
  | reclassify name c =>
    simp only [Operation.run, reclassify]
    rw [changeFirst_of_notMem (htool h)]
  | addRule rule =>
    by_cases hm : s.hasRule rule.id
    · rw [Operation.run, addRule, if_pos hm]
    · simp [Operation.Fails, addRule, hm] at h
  | removeRule id =>
    rw [Operation.run, removeRule, filter_key_of_notMem (hrule h)]
  | authorRule assigner rule =>
    obtain ⟨fault, hf⟩ := h
    rw [Operation.run, hf]
  | _ => cases h

end failure

section frames

variable {s : Selection}

/-- An operation on tools sets nothing but the tools. -/
theorem run_of_onTools {op : Operation} (h : op.OnTools) :
    op.run s = { s with tools := (op.run s).tools } := by
  have hadd : ∀ t, (s.addTool t).2 = { s with tools := (s.addTool t).2.tools } := by
    intro t
    rw [addTool]
    split <;> rfl
  cases op with
  | addTool tool => exact hadd tool
  | toggleTool tool =>
    rw [Operation.run, toggleTool]
    split
    · rfl
    · exact hadd tool
  | reorderTool name target =>
    rw [Operation.run, reorderTool]
    split
    · split <;> rfl
    · rfl
  | removeTool | setGate | reclassify | clearTools => rfl
  | _ => cases h

/-- An operation on rules sets nothing but the rules and the template. -/
theorem run_of_onRules {op : Operation} (h : op.OnRules) :
    op.run s =
      { s with rules := (op.run s).rules, activeTemplate := (op.run s).activeTemplate } := by
  have hadd : ∀ r, (s.addRule r).2 = { s with
      rules := (s.addRule r).2.rules, activeTemplate := (s.addRule r).2.activeTemplate } := by
    intro r
    rw [addRule]
    split <;> rfl
  cases op with
  | addRule rule => exact hadd rule
  | toggleRule rule =>
    rw [Operation.run, toggleRule]
    split
    · rfl
    · exact hadd rule
  | authorRule assigner rule =>
    rw [Operation.run]
    split
    · next hr =>
      rw [authorRule_eq_ok hr]
      rfl
    · rfl
  | removeRule | clearTemplate => rfl
  | _ => cases h

theorem rules_run_of_onTools {op : Operation} (h : op.OnTools) : (op.run s).rules = s.rules := by
  rw [run_of_onTools h]

theorem toolNames_run_of_onRules {op : Operation} (h : op.OnRules) :
    (op.run s).toolNames = s.toolNames := by
  rw [run_of_onRules h]
  rfl

end frames

section rules

variable (s : Selection)

theorem rules_addRule (r : NamedRule) :
    (s.addRule r).2.rules = s.rules ++ [r].filter fun r => r.id ∉ s.ruleIds := by
  rw [addRule, List.filter_singleton]
  by_cases h : r.id ∈ s.ruleIds <;> simp [hasRule_iff, h]

theorem rules_toggleRule (r : NamedRule) :
    (s.toggleRule r).2.rules =
      s.rules.filter (fun r' => r'.id ≠ r.id) ++ [r].filter fun r => r.id ∉ s.ruleIds := by
  rw [toggleRule_eq]
  exact toggled_eq r

variable {s}

/-- What an operation makes of the rules: those that it keeps, and then those that it offers and
whose ids are new. -/
theorem rules_run {op : Operation} (h : ¬ op.Switches) :
    (op.run s).rules =
      s.rules.filter op.keepsRule ++ (op.offeredRules s).filter fun r => r.id ∉ s.ruleIds := by
  have hall : s.rules.filter (fun _ => true) = s.rules := List.filter_true s.rules
  cases op with
  | addRule rule =>
    rw [Operation.run, rules_addRule]
    exact congrArg (· ++ _) hall.symm
  | toggleRule rule => exact s.rules_toggleRule rule
  | removeRule id => exact (List.append_nil _).symm
  | authorRule assigner rule =>
    cases hr : s.authorRule assigner rule with
    | error fault =>
      apply eq_filter_append
      · rw [Operation.run, hr]
      · exact fun _ => rfl
      · rw [Operation.offeredRules, hr]
    | ok written =>
      obtain ⟨named, s'⟩ := written
      -- The id is a free one, so that the new rule is not filtered out.
      have hfresh := id_notMem_of_authorRule hr
      rw [Operation.run, Operation.offeredRules, hr]
      dsimp only
      rw [authorRule_eq_ok hr, List.filter_singleton, decide_eq_true hfresh]
      exact congrArg (· ++ _) hall.symm
  | clearTemplate | reset =>
    exact ((List.append_nil _).trans (List.filter_false s.rules)).symm
  | addTool | toggleTool | removeTool | reorderTool | setGate | reclassify | clearTools =>
    exact eq_filter_append (rules_run_of_onTools trivial) (fun _ => rfl) rfl
  | rename => exact eq_filter_append rfl (fun _ => rfl) rfl
  | selectTemplate => exact absurd trivial h

end rules

section tools

variable (s : Selection)

theorem toolNames_addTool_eq (t : Tool) :
    (s.addTool t).2.toolNames = s.toolNames ++ [t.name].filter fun n => n ∉ s.toolNames := by
  rw [toolNames_addTool, List.filter_singleton]
  by_cases h : t.name ∈ s.toolNames <;> simp [hasTool_iff, h]

theorem toolNames_toggleTool (t : Tool) :
    (s.toggleTool t).2.toolNames =
      s.toolNames.filter (fun n => n ≠ t.name) ++ [t.name].filter fun n => n ∉ s.toolNames := by
  have hone : [t.name] = [(⟨t, .allow⟩ : Selected)].map Selected.name := rfl
  rw [hone, toggleTool_eq]
  simp only [toolNames, List.filter_map, toggled_eq, List.map_append]
  rfl

variable {s}

/-- What an operation makes of the names of the tools: those that it keeps, and then those that it
offers and that are new. -/
theorem toolNames_run {op : Operation} (h : ¬ op.Switches) (hr : ¬ op.Reorders) :
    (op.run s).toolNames = s.toolNames.filter op.keepsTool ++
      (op.offeredTools.map (·.name)).filter fun n => n ∉ s.toolNames := by
  cases op with
  | addTool tool =>
    rw [Operation.run, toolNames_addTool_eq]
    exact congrArg (· ++ _) (List.filter_true s.toolNames).symm
  | toggleTool tool => exact s.toolNames_toggleTool tool
  | removeTool name => exact (s.toolNames_removeTool name).trans (List.append_nil _).symm
  | clearTools | reset =>
    exact ((List.append_nil _).trans (List.filter_false s.toolNames)).symm
  | setGate name gate =>
    exact eq_filter_append (s.toolNames_setGate name gate) (fun _ => rfl) rfl
  | reclassify name c =>
    exact eq_filter_append (s.toolNames_reclassify name c) (fun _ => rfl) rfl
  | addRule | toggleRule | authorRule | removeRule | clearTemplate =>
    exact eq_filter_append (toolNames_run_of_onRules trivial) (fun _ => rfl) rfl
  | rename => exact eq_filter_append rfl (fun _ => rfl) rfl
  | selectTemplate => exact absurd trivial h
  | reorderTool => exact absurd trivial hr

end tools

end Selection

namespace Operation

variable {op : Operation} {s : Selection}

theorem length_offeredRules_le (h : ¬ op.Switches) : (op.offeredRules s).length ≤ 1 := by
  cases op with
  | authorRule assigner rule =>
    rw [offeredRules]
    split <;> simp
  | selectTemplate => exact absurd trivial h
  | addRule | toggleRule => exact Nat.le_refl 1
  | _ => exact Nat.zero_le 1

theorem length_offeredTools_le (h : ¬ op.Switches) : op.offeredTools.length ≤ 1 := by
  cases op with
  | selectTemplate => exact absurd trivial h
  | addTool | toggleTool => exact Nat.le_refl 1
  | _ => exact Nat.zero_le 1

theorem growsBy_rules_run (h : ¬ op.Switches) : GrowsBy 1 s.rules (op.run s).rules := by
  rw [Selection.rules_run h]
  exact .of_filter (length_offeredRules_le h)

theorem growsBy_toolNames_run (h : ¬ op.Switches) (hr : ¬ op.Reorders) :
    GrowsBy 1 s.toolNames (op.run s).toolNames := by
  rw [Selection.toolNames_run h hr]
  refine .of_filter ?_
  rw [List.length_map]
  exact length_offeredTools_le h

/-- Over a row of operations too, the rules that are kept stand first and in their order, and so do
the names of the tools unless a tool is moved. -/
theorem growsBy_foldl_run {ops : List Operation} (h : ∀ op ∈ ops, ¬ op.Switches) :
    GrowsBy ops.length s.rules (ops.foldl run s).rules ∧
    ((∀ op ∈ ops, ¬ op.Reorders) →
      GrowsBy ops.length s.toolNames (ops.foldl run s).toolNames) := by
  induction ops generalizing s with
  | nil => exact ⟨.refl s.rules, fun _ => .refl s.toolNames⟩
  | cons op ops ih =>
    obtain ⟨hop, hops⟩ := List.forall_mem_cons.mp h
    obtain ⟨hrules, hnames⟩ := ih (s := op.run s) hops
    rw [List.length_cons, Nat.add_comm]
    refine ⟨(growsBy_rules_run hop).trans hrules, fun hr => ?_⟩
    obtain ⟨hrop, hrops⟩ := List.forall_mem_cons.mp hr
    exact (growsBy_toolNames_run hop hrop).trans (hnames hrops)

end Operation

/-- An operation that fails has no effect. One on tools sets nothing but the tools, and one on rules
leaves the tools and the name as they were. But for the choice of a template, after an operation the
rules are some of those before, unchanged and in their order, followed by at most one that is new,
and so are the names of the tools unless a tool is moved. Rules that are pushed without a look at
their ids are no exception. -/
theorem operations_are_local (s : Selection) :
    (∀ op : Operation,
      (op.Fails s → op.run s = s) ∧
      (op.OnTools → op.run s = { s with tools := (op.run s).tools }) ∧
      (op.OnRules → (op.run s).tools = s.tools ∧ (op.run s).policyName = s.policyName) ∧
      (¬ op.Switches → GrowsBy 1 s.rules (op.run s).rules ∧
        (¬ op.Reorders → GrowsBy 1 s.toolNames (op.run s).toolNames))) ∧
    ∀ r, s.pushRule r = { s with rules := (s.pushRule r).rules } ∧
      GrowsBy 1 s.rules (s.pushRule r).rules := by
  refine ⟨fun op => ⟨Selection.run_of_fails, Selection.run_of_onTools, fun h => ?_, fun h =>
    ⟨Operation.growsBy_rules_run h, Operation.growsBy_toolNames_run h⟩⟩, fun r => ⟨rfl, ?_⟩⟩
  · rw [Selection.run_of_onRules h]
    exact ⟨rfl, rfl⟩
  · exact ⟨s.rules, [r], rfl, .refl s.rules, Nat.le_refl 1⟩

section doubled

/-! A selection in which a name and an id occur twice. -/

def doubledRule (id tool : String) : NamedRule := ⟨id, "T", .forTool .addTaint tool⟩

def doubled : Selection where
  policyName := "p"
  tools := [⟨.ofClass "find" .safeRead "", .allow⟩, ⟨.ofClass "mail" .safeWrite "", .deny⟩,
    ⟨.ofClass "find" .sensitiveRead "", .allow⟩]
  rules := [doubledRule "a" "find", doubledRule "b" "mail", doubledRule "a" "mail"]
  activeTemplate := some "T"

theorem operations_are_local_doubled :
    (Operation.removeRule "c").Fails doubled ∧
    (Operation.removeRule "c").run doubled = doubled ∧
    (Operation.setGate "find" .deny).OnTools ∧
    ((Operation.setGate "find" .deny).run doubled).rules = doubled.rules ∧
    ((Operation.setGate "find" .deny).run doubled).tools.map (·.gate) = [.deny, .deny, .allow] ∧
    (Operation.toggleRule (doubledRule "a" "read")).OnRules ∧
    ((Operation.toggleRule (doubledRule "a" "read")).run doubled).tools = doubled.tools ∧
    ¬ (Operation.toggleRule (doubledRule "a" "read")).Switches ∧
    GrowsBy 1 doubled.rules [doubledRule "b" "mail"] ∧
    ¬ (Operation.toggleTool (.ofClass "read" .safeRead "")).Switches ∧
    ¬ (Operation.toggleTool (.ofClass "read" .safeRead "")).Reorders ∧
    GrowsBy 1 ["find", "mail", "find"] ["find", "mail", "find", "read"] := by
  obtain ⟨hlocal, -⟩ := operations_are_local doubled
  have hfails : (Operation.removeRule "c").Fails doubled := by
    show (doubled.removeRule "c").1 = false
    decide
  have htools : (Operation.setGate "find" .deny).OnTools := trivial
  have hrules : (Operation.toggleRule (doubledRule "a" "read")).OnRules := trivial
  refine ⟨hfails, (hlocal _).1 hfails, htools, ?_, by decide, hrules, ((hlocal _).2.2.1 hrules).1,
    id, ((hlocal (.toggleRule (doubledRule "a" "read"))).2.2.2 id).1, id, id,
    ((hlocal (.toggleTool (.ofClass "read" .safeRead ""))).2.2.2 id).2 id⟩
  rw [(hlocal _).2.1 htools]

end doubled

end TaintPolicy
