import Mathlib.Algebra.Group.Nat.Even
import TaintPolicy.Proofs.AssembledSelection

/-!
# Toggling

Toggling an entry by its key makes the key disappear or appear, however many entries had it. So
after a row of toggles a key is there exactly if it was there before and was toggled an even number
of times, or was not there and was toggled an odd number of times; the order of the toggles does not
matter. Rules are toggled by id and tools by name.
-/

namespace TaintPolicy

section lists

variable {α : Type} {key : α → String} {as bs : List α}

/-- One toggle turns the membership of one key around. -/
theorem mem_keys_toggled {a : α} {x : String} :
    x ∈ (toggled key as a).map key ↔ (x ∈ as.map key ↔ x ≠ key a) := by
  by_cases hx : x = key a
  · subst hx
    rw [toggled]
    split
    · next h => simp [h]
    · next h => simp [h]
  · have hiff : (x ∈ as.map key ↔ x ≠ key a) ↔ x ∈ as.map key := iff_true_right hx
    rw [hiff, toggled]
    split
    · simp only [List.mem_map, List.mem_filter, decide_eq_true_eq]
      refine exists_congr fun b => and_congr_left fun hb => and_iff_left ?_
      exact hb ▸ hx
    · rw [List.map_append, List.mem_append, List.map_singleton, List.mem_singleton, or_iff_left hx]

/-- A row of toggles leaves the membership of a key as it was exactly if the key occurs in it an
even number of times. -/
theorem mem_keys_foldl_toggled {x : String} :
    x ∈ (bs.foldl (toggled key) as).map key ↔
      (x ∈ as.map key ↔ Even ((bs.map key).count x)) := by
  induction bs generalizing as with
  | nil => simp
  | cons b bs ih =>
    rw [List.foldl_cons, ih, mem_keys_toggled, List.map_cons, List.count_cons]
    by_cases hx : x = key b
    · simp only [hx, beq_self_eq_true, if_true, Nat.even_add_one]
      tauto
    · have hne : (key b == x) = false := beq_eq_false_iff_ne.mpr (Ne.symm hx)
      simp only [hne, Bool.false_eq_true, if_false, Nat.add_zero, iff_true_right hx]

/-- Entries with other keys than the toggled ones stay as they are, in their order. -/
theorem filter_foldl_toggled {p : String → Bool} (h : ∀ b ∈ bs, p (key b) = false) :
    (bs.foldl (toggled key) as).filter (fun a => p (key a)) = as.filter fun a => p (key a) := by
  induction bs generalizing as with
  | nil => rfl
  | cons b bs ih =>
    obtain ⟨hb, hbs⟩ := List.forall_mem_cons.mp h
    rw [List.foldl_cons, ih hbs, toggled]
    split
    · rw [List.filter_filter]
      apply List.filter_congr
      intro a _
      by_cases ha : key a = key b <;> simp [ha, hb]
    · rw [List.filter_append, List.filter_singleton, hb]
      exact List.append_nil _

end lists

namespace Selection

/-- Toggles the rules one after the other. -/
def toggleRules (s : Selection) (rs : List NamedRule) : Selection :=
  rs.foldl (fun s r => (s.toggleRule r).2) s

/-- Toggles the tools one after the other. -/
def toggleTools (s : Selection) (ts : List Tool) : Selection :=
  ts.foldl (fun s t => (s.toggleTool t).2) s

variable (s : Selection)

theorem toggleRules_eq (rs : List NamedRule) :
    s.toggleRules rs = { s with rules := rs.foldl (toggled NamedRule.id) s.rules } := by
  induction rs generalizing s with
  | nil => rfl
  | cons r rs ih =>
    have hstep : s.toggleRules (r :: rs) = (s.toggleRule r).2.toggleRules rs := rfl
    rw [hstep, ih, toggleRule_eq]
    rfl

theorem toggleTools_eq (ts : List Tool) :
    s.toggleTools ts =
      { s with tools := (ts.map (⟨·, .allow⟩)).foldl (toggled Selected.name) s.tools } := by
  induction ts generalizing s with
  | nil => rfl
  | cons t ts ih =>
    have hstep : s.toggleTools (t :: ts) = (s.toggleTool t).2.toggleTools ts := rfl
    rw [hstep, ih, toggleTool_eq]
    rfl

/-- A toggle says whether the rule is chosen then. -/
theorem toggleRule_answer_iff (r : NamedRule) :
    (s.toggleRule r).1 = true ↔ r.id ∈ (s.toggleRule r).2.ruleIds := by
  have hmem : r.id ∈ (s.toggleRule r).2.ruleIds ↔ r.id ∉ s.ruleIds := by
    rw [toggleRule_eq, ruleIds, mem_keys_toggled, iff_false_right (not_not.mpr rfl)]
    rfl
  rw [hmem, ← hasRule_iff, toggleRule_eq, Bool.not_eq_true', Bool.not_eq_true]

theorem toggleTool_answer_iff (t : Tool) :
    (s.toggleTool t).1 = true ↔ t.name ∈ (s.toggleTool t).2.toolNames := by
  have hmem : t.name ∈ (s.toggleTool t).2.toolNames ↔ t.name ∉ s.toolNames := by
    rw [toggleTool_eq, toolNames, mem_keys_toggled]
    exact iff_false_right (not_not.mpr rfl)
  rw [hmem, ← hasTool_iff, toggleTool_eq, Bool.not_eq_true', Bool.not_eq_true]

theorem mem_ruleIds_toggleRules {rs : List NamedRule} {id : String} :
    id ∈ (s.toggleRules rs).ruleIds ↔ (id ∈ s.ruleIds ↔ Even ((rs.map (·.id)).count id)) := by
  rw [toggleRules_eq]
  exact mem_keys_foldl_toggled

theorem mem_toolNames_toggleTools {ts : List Tool} {name : String} :
    name ∈ (s.toggleTools ts).toolNames ↔
      (name ∈ s.toolNames ↔ Even ((ts.map (·.name)).count name)) := by
  have hnames : (ts.map fun t => (⟨t, .allow⟩ : Selected)).map Selected.name = ts.map (·.name) := by
    rw [List.map_map]
    rfl
  rw [toggleTools_eq, ← hnames]
  exact mem_keys_foldl_toggled

end Selection

section choices

variable {corpus : List NamedRule}

/-- The corpus has a rule under its own id. -/
theorem id_of_find?_indexById {id : String} {r : NamedRule}
    (h : Fields.find? id (indexById corpus) = some r) : r.id = id := by
  rw [indexById_eq] at h
  obtain ⟨r', -, he⟩ := List.mem_map.mp (Fields.mem_ofEntries (Fields.mem_of_find? h))
  cases he
  rfl

/-- The rules that the corpus has under these ids. -/
def rulesOfIds (corpus : List NamedRule) (ids : List String) : List NamedRule :=
  ids.filterMap fun id => Fields.find? id (indexById corpus)

theorem ids_rulesOfIds {ids : List String} (h : ∀ id ∈ ids, id ∈ corpus.map (·.id)) :
    (rulesOfIds corpus ids).map (·.id) = ids := by
  have hid : ∀ id ∈ ids, (Fields.find? id (indexById corpus)).map (·.id) = some id := by
    intro id hid
    cases hr : Fields.find? id (indexById corpus) with
    | none => exact absurd (mem_names_indexById.mpr (h id hid)) (Fields.find?_eq_none_iff.mp hr)
    | some r => rw [Option.map_some, id_of_find?_indexById hr]
  rw [rulesOfIds, List.map_filterMap, List.filterMap_congr hid, List.filterMap_some]

theorem Selection.toggleAll_eq (corpus : List NamedRule) (s : Selection) (ids : List String) :
    s.toggleAll corpus ids = s.toggleRules (rulesOfIds corpus ids) := by
  induction ids generalizing s with
  | nil => rfl
  | cons id ids ih =>
    rw [toggleAll, List.foldl_cons, rulesOfIds, List.filterMap_cons]
    cases Fields.find? id (indexById corpus) with
    | none => exact ih s
    | some r => exact ih (s.toggleRule r).2

theorem mem_ruleIds_toggleAll {s : Selection} {ids : List String}
    (h : ∀ id ∈ ids, id ∈ corpus.map (·.id)) {id : String} :
    id ∈ (s.toggleAll corpus ids).ruleIds ↔ (id ∈ s.ruleIds ↔ Even (ids.count id)) := by
  rw [Selection.toggleAll_eq, Selection.mem_ruleIds_toggleRules, ids_rulesOfIds h]

end choices

namespace Command

theorem rules_nameSelection (configured : String) (requested : Option String) (s : Selection) :
    (nameSelection configured requested s).rules = s.rules := by
  cases requested with
  | some name => rfl
  | none =>
    rw [nameSelection]
    split <;> rfl

/-- Naming a selection looks at no rule. -/
theorem nameSelection_rules (configured : String) (requested : Option String) (s : Selection)
    (rules : List NamedRule) :
    nameSelection configured requested { s with rules } =
      { nameSelection configured requested s with rules } := by
  cases requested with
  | some name => rfl
  | none =>
    rw [nameSelection, nameSelection]
    split <;> rfl

/-- In another order, the ids to toggle lead to the same selection up to the order of its rules. -/
theorem assemble_perm {config : Config} {catalog : Catalog} {templates : List Template}
    {choices : Choices} {start s : Selection} {ids : List String} (hp : ids.Perm choices.rules)
    (h : assemble config catalog templates choices start = .ok s) :
    ∃ s', assemble config catalog templates { choices with rules := ids } start = .ok s' ∧
      s' = { s with rules := s'.rules } ∧ ∀ id, id ∈ s'.ruleIds ↔ id ∈ s.ruleIds := by
  obtain ⟨opened, hopened, htools, hdenied, hids, rfl⟩ := assemble_eq_ok_iff.mp h
  have hids' : ∀ id ∈ ids, id ∈ (corpusOf templates).map (·.id) :=
    fun id hid => hids id (hp.mem_iff.mp hid)
  refine ⟨_, assemble_eq_ok_iff.mpr ⟨opened, hopened, htools, hdenied, hids', rfl⟩, ?_, ?_⟩
  · simp only [Selection.toggleAll_eq, Selection.toggleRules_eq, nameSelection_rules]
  · intro id
    have hnamed : ∀ s : Selection,
        (nameSelection config.policyName choices.name s).ruleIds = s.ruleIds :=
      fun s => congrArg (List.map NamedRule.id) (rules_nameSelection ..)
    rw [hnamed, hnamed, mem_ruleIds_toggleAll hids', mem_ruleIds_toggleAll hids, hp.count_eq]

end Command

/-- After a row of toggles a rule is chosen exactly if its id was chosen before and occurs in the
row an even number of times, or was not and occurs an odd number of times; each toggle says whether
its rule is chosen then, and rules with other ids are left alone, as is all that is not a rule. The
same holds for tools and their names. So the order of the rules to toggle on the command line does
not matter for which rules are chosen. -/
theorem toggling_is_parity :
    (∀ (s : Selection) (rs : List NamedRule),
      (∀ r, ((s.toggleRules rs).toggleRule r).1 = true ↔
        r.id ∈ (s.toggleRules (rs ++ [r])).ruleIds) ∧
      (∀ id, id ∈ (s.toggleRules rs).ruleIds ↔
        (id ∈ s.ruleIds ↔ Even ((rs.map (·.id)).count id))) ∧
      (s.toggleRules rs).rules.filter (fun r => r.id ∉ rs.map (·.id)) =
        s.rules.filter (fun r => r.id ∉ rs.map (·.id)) ∧
      s.toggleRules rs = { s with rules := (s.toggleRules rs).rules }) ∧
    (∀ (s : Selection) (ts : List Tool),
      (∀ t, ((s.toggleTools ts).toggleTool t).1 = true ↔
        t.name ∈ (s.toggleTools (ts ++ [t])).toolNames) ∧
      (∀ name, name ∈ (s.toggleTools ts).toolNames ↔
        (name ∈ s.toolNames ↔ Even ((ts.map (·.name)).count name))) ∧
      (s.toggleTools ts).tools.filter (fun t => t.name ∉ ts.map (·.name)) =
        s.tools.filter (fun t => t.name ∉ ts.map (·.name)) ∧
      s.toggleTools ts = { s with tools := (s.toggleTools ts).tools }) ∧
    ∀ (host : Host Id) config choices ids corpus s, ids.Perm choices.rules →
      Command.buildSelection host config choices = .ok (corpus, s) →
      ∃ s', Command.buildSelection host config { choices with rules := ids } = .ok (corpus, s') ∧
        s' = { s with rules := s'.rules } ∧ ∀ id, id ∈ s'.ruleIds ↔ id ∈ s.ruleIds := by
  refine ⟨fun s rs => ⟨fun r => ?_, fun id => s.mem_ruleIds_toggleRules, ?_, ?_⟩,
    fun s ts => ⟨fun t => ?_, fun name => s.mem_toolNames_toggleTools, ?_, ?_⟩, ?_⟩
  · have hlast : s.toggleRules (rs ++ [r]) = ((s.toggleRules rs).toggleRule r).2 := by
      rw [Selection.toggleRules, List.foldl_append]
      rfl
    rw [hlast]
    exact (s.toggleRules rs).toggleRule_answer_iff r
  · rw [Selection.toggleRules_eq]
    refine filter_foldl_toggled (p := fun id => id ∉ rs.map (·.id)) fun r hr => ?_
    simpa using ⟨r, hr, rfl⟩
  · rw [Selection.toggleRules_eq]
  · have hlast : s.toggleTools (ts ++ [t]) = ((s.toggleTools ts).toggleTool t).2 := by
      rw [Selection.toggleTools, List.foldl_append]
      rfl
    rw [hlast]
    exact (s.toggleTools ts).toggleTool_answer_iff t
  · rw [Selection.toggleTools_eq]
    refine filter_foldl_toggled (p := fun name => name ∉ ts.map (·.name)) fun t ht => ?_
    obtain ⟨u, hu, rfl⟩ := List.mem_map.mp ht
    simpa using ⟨u, hu, rfl⟩
  · rw [Selection.toggleTools_eq]
  · intro host config choices ids corpus s hp h
    obtain ⟨start, hstart, hs⟩ := Command.buildSelection_eq_ok h
    obtain ⟨s', hs', hrest⟩ := Command.assemble_perm hp hs
    refine ⟨s', ?_, hrest⟩
    cases h.symm.trans (Command.buildSelection_of_assemble hstart rfl hs)
    exact Command.buildSelection_of_assemble hstart rfl hs'

theorem Host.loadTemplates_of_read {host : Host Id} {mode : Mode} {path text : String}
    {templates : List Template} (htext : host.read path = some text)
    (hread : Template.listOfText mode text = .ok templates) :
    host.loadTemplates mode path = templates := by
  rw [loadTemplates, load, htext]
  dsimp only [bind]
  rw [hread]
  rfl

section pair

/-! A project with one template of two rules. -/

def pairText : String :=
  "rule_templates: [\x7bname: T, taint_rules: " ++
    "[\x7baction: ADD_TAINT, tool: find\x7d, \x7baction: CHECK_TAINT, tool: mail\x7d]\x7d]"

def pairHost : Host Id where
  read path := if path = "templates" then some pairText else none
  holds _ := false
  absolute _ := none
  write _ _ := false
  now := default
  seed := ""

def pairConfig : Config := { catalog := "tools", templates := "templates" }

/-- Adopts the template and toggles each of its rules twice. -/
def pairChoices : Command.Choices :=
  { template := some "T", rules := ["T-0", "T-0", "T-1", "T-1"] }

def pairRules : List NamedRule :=
  [⟨"T-0", "T", .forTool .addTaint "find"⟩, ⟨"T-1", "T", .forTool .checkTaint "mail"⟩]

def pairTemplate : Template := ⟨"T", "", [], pairRules⟩

theorem toggling_is_parity_pair :
    let ids := ["T-1", "T-0", "T-1", "T-0"]
    let s : Selection :=
      { policyName := pairConfig.policyName, rules := pairRules, activeTemplate := some "T" }
    ids.Perm pairChoices.rules ∧
    Command.buildSelection pairHost pairConfig pairChoices = .ok (pairRules, s) ∧
    ∃ s', Command.buildSelection pairHost pairConfig { pairChoices with rules := ids } =
        .ok (pairRules, s') ∧
      s' = { s with rules := s'.rules } ∧ ∀ id, id ∈ s'.ruleIds ↔ id = "T-0" ∨ id = "T-1" := by
  intro ids s
  have hperm : ids.Perm pairChoices.rules := by decide
  have hread : Template.listOfText .lenient pairText = .ok [pairTemplate] := by decide +kernel
  have hload : pairHost.loadTemplates pairConfig.mode pairConfig.templates = [pairTemplate] :=
    Host.loadTemplates_of_read rfl hread
  have hassemble : Command.assemble pairConfig (pairHost.loadCatalog pairConfig.catalog)
      [pairTemplate] pairChoices {} = .ok s := by decide +kernel
  have hbuild : Command.buildSelection pairHost pairConfig pairChoices = .ok (pairRules, s) :=
    Command.buildSelection_of_assemble rfl hload hassemble
  obtain ⟨s', hs', hrest, hids⟩ := toggling_is_parity.2.2 _ _ _ _ _ _ hperm hbuild
  have hmem : ∀ id, id ∈ s.ruleIds ↔ id = "T-0" ∨ id = "T-1" := by
    intro id
    simp [s, Selection.ruleIds, pairRules]
  exact ⟨hperm, hbuild, s', hs', hrest, fun id => (hids id).trans (hmem id)⟩

end pair

end TaintPolicy
