import TaintPolicy.Proofs.AssembledSelection
import TaintPolicy.Proofs.DistinctFields
import TaintPolicy.Proofs.Restoration
import TaintPolicy.Proofs.ToolLists

/-!
# Chosen tools

Which tools a command line compiles, and which of them it denies. The tools are those of the
template or of the file to start from, and then those that the globs fit, each name where it occurs
first. A tool that is chosen already keeps its gate when a glob fits it again, and a template
forgets the gates of the file.
-/

namespace TaintPolicy

namespace Selection

variable {s : Selection}

/-- With distinct names, the tools of these names are denied and the others keep their gates. -/
theorem tools_denyAll (h : s.toolNames.Nodup) (names : List String) :
    (s.denyAll names).tools =
      s.tools.map fun t => if t.name ∈ names then { t with gate := .deny } else t := by
  induction names generalizing s with
  | nil => simp [denyAll]
  | cons name names ih =>
    have hstep : s.denyAll (name :: names) = (s.setGate name .deny).2.denyAll names := rfl
    have hn : (s.setGate name .deny).2.toolNames.Nodup := by rwa [toolNames_setGate]
    rw [hstep, ih hn, setGate, changeFirst_of_nodup h, List.map_map]
    apply List.map_congr_left
    intro t _
    by_cases ht : t.name = name
    · have hd : Selected.name { t with gate := .deny } = t.name := rfl
      by_cases hm : t.name ∈ names <;> simp [ht, hd, ht ▸ hm]
    · simp [ht]

theorem tools_toggleAll (corpus : List NamedRule) (s : Selection) (ids : List String) :
    (s.toggleAll corpus ids).tools = s.tools := by
  refine foldl_keeps (f := tools) (fun s id => ?_) s ids
  cases Fields.find? id (indexById corpus) with
  | none => rfl
  | some r => exact s.tools_toggleRule r

end Selection

namespace Command

namespace Choices

variable (choices : Choices)

/-- The tools that are asked for, with repetitions: those that the template allows or else those
that the file gates, as far as the catalog has them, and then those that the globs fit. -/
def askedTools (catalog : Catalog) (templates : List Template) (gates : Fields Gate) : List Tool :=
  let names := match choices.template with
    | none => Fields.names gates
    | some name => (templates.find? fun t : Template => t.name = name).elim [] Template.allowedTools
  names.filterMap catalog.get? ++ choices.tools.flatMap catalog.fitting

/-- The file denies the tool, and no template makes the choices forget that. -/
def Inherits (gates : Fields Gate) (name : String) : Prop :=
  choices.template = none ∧ Fields.find? name gates = some .deny

/-- The tool is denied, be it by an option or by the file. -/
def Denies (gates : Fields Gate) (name : String) : Prop :=
  name ∈ choices.denied ∨ choices.Inherits gates name

instance (gates : Fields Gate) (name : String) : Decidable (choices.Inherits gates name) :=
  inferInstanceAs (Decidable (_ ∧ _))

instance (gates : Fields Gate) (name : String) : Decidable (choices.Denies gates name) :=
  inferInstanceAs (Decidable (_ ∨ _))

/-- The tool with the gate that it has before tools are denied. -/
def openingGate (gates : Fields Gate) (t : Tool) : Selected :=
  ⟨t, if choices.Inherits gates t.name then .deny else .allow⟩

variable {choices} {gates : Fields Gate}

theorem openingGate_of_not {t : Tool} (h : ¬ choices.Inherits gates t.name) :
    choices.openingGate gates t = ⟨t, .allow⟩ := by
  rw [openingGate, if_neg h]

end Choices

section assembly

variable {config : Config} {catalog : Catalog} {templates : List Template} {choices : Choices}
  {gates : Fields Gate} {start opened s : Selection}

theorem mem_fitting {pattern : String} {t : Tool} (h : t ∈ catalog.fitting pattern) :
    t ∈ catalog.tools :=
  (List.mem_filter.mp h).1

/-- The tools of the file have its gates. -/
theorem restoredTools_eq (ht : choices.template = none) (hn : (Fields.names gates).Nodup) :
    restoredTools catalog gates =
      ((Fields.names gates).filterMap catalog.get?).map (choices.openingGate gates) := by
  rw [restoredTools, List.map_filterMap, Fields.names, List.filterMap_map]
  apply List.filterMap_congr
  intro g hg
  rw [Function.comp_apply]
  cases hget : catalog.get? g.1 with
  | none => rfl
  | some t =>
    have hname := Catalog.name_of_get? hget
    have hfind : Fields.find? t.name gates = some g.2 := hname ▸ Fields.find?_of_mem hn hg
    have hi : choices.Inherits gates t.name ↔ g.2 = .deny := by
      rw [Choices.Inherits, hfind, Option.some.injEq, and_iff_right ht]
    rw [Option.map_some, Option.map_some, Choices.openingGate]
    cases hgate : g.2 <;> simp [hi, hgate]

/-- The file gates no tool that is neither among its tools nor unknown to the catalog. -/
theorem not_inherits_of_notMem {t : Tool} (hm : t ∈ catalog.tools)
    (h : t.name ∉ ((Fields.names gates).filterMap catalog.get?).map (·.name)) :
    ¬ choices.Inherits gates t.name := by
  rintro ⟨-, hdeny⟩
  obtain ⟨u, hu⟩ := Option.isSome_iff_exists.mp (Catalog.isSome_get?_of_mem hm)
  have hname : t.name ∈ Fields.names gates := List.mem_map_of_mem (Fields.mem_of_find? hdeny)
  refine h (List.mem_map.mpr ⟨u, ?_, Catalog.name_of_get? hu⟩)
  exact List.mem_filterMap.mpr ⟨t.name, hname, hu⟩

/-- Before tools are denied, the tools that are asked for are chosen, and of these the ones that the
file denies are denied. -/
theorem tools_widened
    (hopened : adoptTemplate catalog templates start choices.template = .ok opened)
    (htools : start.tools = restoredTools catalog gates) (hn : (Fields.names gates).Nodup) :
    (opened.addTools (choices.tools.flatMap catalog.fitting)).tools =
      (firstOfEach (choices.askedTools catalog templates gates)).map
        (choices.openingGate gates) := by
  rcases adoptTemplate_eq_ok_iff.mp hopened with ⟨ht, rfl⟩ | ⟨name, t, ht, hfind, rfl⟩
  · let imported := (Fields.names gates).filterMap catalog.get?
    have hasked : choices.askedTools catalog templates gates =
        imported ++ choices.tools.flatMap catalog.fitting := by
      simp only [Choices.askedTools, ht, imported]
    have hstart : start.tools = imported.map (choices.openingGate gates) :=
      htools.trans (restoredTools_eq ht hn)
    have hnames : start.toolNames = imported.map (·.name) := by
      rw [Selection.toolNames, hstart, List.map_map]
      rfl
    have hnodup : (imported.map (·.name)).Nodup := by
      rw [← hnames, Selection.toolNames, htools]
      exact (names_restoredTools_sublist catalog gates).nodup hn
    rw [Selection.tools_addTools, hasked, firstOfEach_append, firstOfEach_of_nodup hnodup,
      List.map_append, hnames, hstart]
    refine congrArg _ (List.map_congr_left fun t h => ?_)
    obtain ⟨h, hnew⟩ := List.mem_filter.mp h
    obtain ⟨p, -, hp⟩ := List.mem_flatMap.mp ((firstOfEach_sublist _).subset h)
    exact (Choices.openingGate_of_not
      (not_inherits_of_notMem (mem_fitting hp) (of_decide_eq_true hnew))).symm
  · let allowed := t.allowedTools.filterMap catalog.get?
    have hasked : choices.askedTools catalog templates gates =
        allowed ++ choices.tools.flatMap catalog.fitting := by
      simp only [Choices.askedTools, ht, hfind, Option.elim_some, allowed]
    have hfresh : ((start.selectTemplate t catalog).addTools
          (choices.tools.flatMap catalog.fitting)).tools =
        (start.clearTools.addTools (choices.askedTools catalog templates gates)).tools := by
      rw [hasked, Selection.addTools_append, Selection.tools_addTools, Selection.tools_addTools]
      rfl
    have hnone : start.clearTools.toolNames = [] := rfl
    rw [hfresh, Selection.tools_addTools, hnone, List.filter_eq_self.mpr (by simp)]
    refine List.map_congr_left fun u _ => (Choices.openingGate_of_not fun h => ?_).symm
    exact Option.some_ne_none _ (ht.symm.trans h.1)

theorem names_widened
    (hopened : adoptTemplate catalog templates start choices.template = .ok opened)
    (htools : start.tools = restoredTools catalog gates) (hn : (Fields.names gates).Nodup) :
    (opened.addTools (choices.tools.flatMap catalog.fitting)).toolNames =
      (firstOfEach (choices.askedTools catalog templates gates)).map (·.name) := by
  rw [Selection.toolNames, tools_widened hopened htools hn, List.map_map]
  rfl

theorem tools_nameSelection (configured : String) (requested : Option String) (s : Selection) :
    (nameSelection configured requested s).tools = s.tools := by
  cases requested with
  | some name => rfl
  | none =>
    rw [nameSelection]
    split <;> rfl

theorem tools_assemble (h : assemble config catalog templates choices start = .ok s)
    (htools : start.tools = restoredTools catalog gates) (hn : (Fields.names gates).Nodup) :
    s.tools = (firstOfEach (choices.askedTools catalog templates gates)).map fun t =>
      ⟨t, if choices.Denies gates t.name then .deny else .allow⟩ := by
  obtain ⟨opened, hopened, -, -, -, rfl⟩ := assemble_eq_ok_iff.mp h
  have hnodup : (opened.addTools (choices.tools.flatMap catalog.fitting)).toolNames.Nodup := by
    rw [names_widened hopened htools hn]
    exact nodup_names_firstOfEach _
  rw [tools_nameSelection, Selection.tools_toggleAll, Selection.tools_denyAll hnodup,
    tools_widened hopened htools hn, List.map_map]
  apply List.map_congr_left
  intro t _
  have hname : (choices.openingGate gates t).name = t.name := rfl
  rw [Function.comp_apply, hname]
  by_cases hd : t.name ∈ choices.denied
  · rw [if_pos hd, if_pos (.inl hd)]
    rfl
  · have hi : choices.Denies gates t.name ↔ choices.Inherits gates t.name := or_iff_right hd
    simp only [if_neg hd, Choices.openingGate, hi]

/-- Where overrides are honored, the compiled gates are those of the tools. -/
theorem get?_compileGates_of_tools {asked : List Tool} {gate : String → Gate}
    (h : s.tools = (firstOfEach asked).map fun t => ⟨t, gate t.name⟩) (name : String) :
    (compileGates true s.tools).get? name =
      if name ∈ s.toolNames then some (gate name) else none := by
  have hnodup : s.toolNames.Nodup := by
    rw [Selection.toolNames, h, List.map_map]
    exact nodup_names_firstOfEach asked
  split
  · next hm =>
    obtain ⟨t, ht, rfl⟩ := List.mem_map.mp hm
    have hgate : t.gate = gate t.name := by
      rw [h] at ht
      obtain ⟨u, -, rfl⟩ := List.mem_map.mp ht
      rfl
    rw [← hgate]
    exact get?_compileGates hnodup true ht
  · next hm => exact get?_compileGates_of_notMem hm true

theorem exists_adoptTemplate_iff :
    (∃ opened, adoptTemplate catalog templates start choices.template = .ok opened) ↔
      ∀ name, choices.template = some name → ∃ t ∈ templates, t.name = name := by
  cases choices.template with
  | none => simp [adoptTemplate]
  | some name =>
    have hsome : (∃ opened, adoptTemplate catalog templates start (some name) = .ok opened) ↔
        (templates.find? fun t => t.name = name).isSome := by
      cases hfind : templates.find? fun t => t.name = name <;> simp [adoptTemplate, hfind]
    rw [hsome, List.find?_isSome]
    simp

theorem assemble_succeeds_iff (htools : start.tools = restoredTools catalog gates)
    (hn : (Fields.names gates).Nodup) :
    (∃ s, assemble config catalog templates choices start = .ok s) ↔
      (∀ name, choices.template = some name → ∃ t ∈ templates, t.name = name) ∧
      (∀ p ∈ choices.tools, ∃ t ∈ catalog.tools, Glob.fits p t.name) ∧
      (∀ name ∈ choices.denied,
        ∃ t ∈ choices.askedTools catalog templates gates, t.name = name) ∧
      (∀ id ∈ choices.rules, ∃ r ∈ corpusOf templates, r.id = id) := by
  have hfits : ∀ p, catalog.fitting p ≠ [] ↔ ∃ t ∈ catalog.tools, Glob.fits p t.name := by
    intro p
    simp [Catalog.fitting]
  have hnames : ∀ opened,
      adoptTemplate catalog templates start choices.template = .ok opened → ∀ name,
      (name ∈ (opened.addTools (choices.tools.flatMap catalog.fitting)).toolNames ↔
        ∃ t ∈ choices.askedTools catalog templates gates, t.name = name) := by
    intro opened hopened name
    rw [names_widened hopened htools hn, mem_names_firstOfEach, List.mem_map]
  constructor
  · rintro ⟨s, hs⟩
    obtain ⟨opened, hopened, hp, hd, hr, -⟩ := assemble_eq_ok_iff.mp hs
    exact ⟨exists_adoptTemplate_iff.mp ⟨opened, hopened⟩, fun p h => (hfits p).mp (hp p h),
      fun name h => (hnames opened hopened name).mp (hd name h),
      fun id h => List.mem_map.mp (hr id h)⟩
  · rintro ⟨ht, hp, hd, hr⟩
    obtain ⟨opened, hopened⟩ := exists_adoptTemplate_iff.mpr ht
    exact ⟨_, assemble_eq_ok_iff.mpr ⟨opened, hopened, fun p h => (hfits p).mpr (hp p h),
      fun name h => (hnames opened hopened name).mpr (hd name h),
      fun id h => List.mem_map.mpr (hr id h), rfl⟩⟩

theorem assemble_fails_iff (htools : start.tools = restoredTools catalog gates)
    (hn : (Fields.names gates).Nodup) :
    (∃ c, assemble config catalog templates choices start = .error c) ↔
      (∃ name, choices.template = some name ∧ ∀ t ∈ templates, t.name ≠ name) ∨
      (∃ p ∈ choices.tools,
        (∃ fault, Glob.tokens? p = .error fault) ∨ ∀ t ∈ catalog.tools, ¬ Glob.fits p t.name) ∨
      (∃ name ∈ choices.denied,
        ∀ t ∈ choices.askedTools catalog templates gates, t.name ≠ name) ∨
      (∃ id ∈ choices.rules, ∀ r ∈ corpusOf templates, r.id ≠ id) := by
  have hfails : (∃ c, assemble config catalog templates choices start = .error c) ↔
      ¬ ∃ s, assemble config catalog templates choices start = .ok s := by
    cases assemble config catalog templates choices start <;> simp
  have hglob : ∀ p, ((∃ fault, Glob.tokens? p = .error fault) ∨
      ∀ t ∈ catalog.tools, ¬ Glob.fits p t.name) ↔ ∀ t ∈ catalog.tools, ¬ Glob.fits p t.name := by
    intro p
    refine or_iff_right_of_imp ?_
    rintro ⟨fault, hf⟩ t -
    simp [Glob.fits, hf]
  rw [hfails, assemble_succeeds_iff htools hn]
  simp only [hglob, not_and_or]
  push Not
  rfl

end assembly

section project

variable (host : Host Id) (config : Config) (choices : Choices)

/-- The gates that the policy file to start from gives to tools. -/
def startGates : Fields Gate :=
  match readGates config.mode (policyGates? (startDocument host choices)) with
  | .ok gates => gates
  | .error _ => []

theorem namesOnce_startDocument : (startDocument host choices).NamesOnce := by
  rw [startDocument]
  split
  · exact .null
  · split
    · exact .null
    · split
      · next hd => exact Yaml.namesOnce_of_read hd
      · exact .null

theorem nodup_names_startGates : (Fields.names (startGates host config choices)).Nodup := by
  rw [startGates]
  split
  · next hg => exact nodup_names_policyGates (namesOnce_startDocument host choices) hg
  · exact List.nodup_nil

variable {host config choices} {start s : Selection}

/-- The imported tools are those that the file gates and the catalog has. -/
theorem tools_startSelection (h : startSelection host config choices = .ok start) :
    start.tools =
      restoredTools (host.loadCatalog config.catalog) (startGates host config choices) := by
  obtain ⟨gates, rules, hg, -, rfl⟩ := restore_eq_ok (restore_startDocument h)
  have hstart : startGates host config choices = gates := by rw [startGates, hg]
  have hn := nodup_names_startGates host config choices
  rw [hstart] at hn ⊢
  rw [restoredFrame, foldl_restoreTool _ hn (by simp [Selection.toolNames])]
  exact List.nil_append _

/-- The tools of a command line are the ones that were asked for, each name where it occurs first:
those of the template or else of the imported file, and then those that the globs fit. Denied are
those that an option denies or that the file denies, the latter unless a template was adopted; and
this is what the compiled gates say where overrides are honored. No selection comes about exactly if
the template is unknown, a glob is none or fits no tool, a tool to deny was not asked for, or a rule
is unknown. -/
theorem compiles_asked_tools (h : startSelection host config choices = .ok start) :
    let catalog : Catalog := host.loadCatalog config.catalog
    let templates : List Template := host.loadTemplates config.mode config.templates
    let gates := startGates host config choices
    let asked := choices.askedTools catalog templates gates
    ((∃ c, buildSelection host config choices = .error c) ↔
      (∃ name, choices.template = some name ∧ ∀ t ∈ templates, t.name ≠ name) ∨
      (∃ p ∈ choices.tools,
        (∃ fault, Glob.tokens? p = .error fault) ∨ ∀ t ∈ catalog.tools, ¬ Glob.fits p t.name) ∨
      (∃ name ∈ choices.denied, ∀ t ∈ asked, t.name ≠ name) ∨
      (∃ id ∈ choices.rules, ∀ r ∈ corpusOf templates, r.id ≠ id)) ∧
    ∀ corpus s, buildSelection host config choices = .ok (corpus, s) →
      s.tools.map (·.tool) = firstOfEach asked ∧
      (∀ t ∈ s.tools, t.gate = .deny ↔ choices.Denies gates t.name) ∧
      ∃ p, (s.compile true).policies = [p] ∧
        ∀ name, p.gates.get? name =
          if name ∈ s.toolNames then
            some (if choices.Denies gates name then .deny else .allow)
          else none := by
  intro catalog templates gates asked
  have htools : start.tools = restoredTools catalog gates := tools_startSelection h
  have hn : (Fields.names gates).Nodup := nodup_names_startGates host config choices
  have hbuild := buildSelection_of_start h
  constructor
  · have hfails : (∃ c, buildSelection host config choices = .error c) ↔
        ∃ c, assemble config catalog templates choices start = .error c := by
      rw [hbuild]
      cases assemble config catalog templates choices start <;> simp
    exact hfails.trans (assemble_fails_iff htools hn)
  · intro corpus s hs
    rw [hbuild] at hs
    obtain ⟨s', hs, he⟩ := map_eq_ok.mp hs
    cases he
    have hall : s.tools = (firstOfEach asked).map fun t =>
        ⟨t, if choices.Denies gates t.name then .deny else .allow⟩ := tools_assemble hs htools hn
    refine ⟨?_, ?_, _, rfl, get?_compileGates_of_tools hall⟩
    · rw [hall, List.map_map]
      exact List.map_id' _
    · intro t ht
      rw [hall] at ht
      obtain ⟨u, -, rfl⟩ := List.mem_map.mp ht
      show (if choices.Denies gates u.name then Gate.deny else .allow) = .deny ↔
        choices.Denies gates u.name
      simp

end project

section desk

/-! A project with three tools, and a policy file that denies one of them. -/

def deskTools : String :=
  "tools: \x7bfind: \x7bclasses: [SAFE_READ]\x7d, mail: \x7bclasses: [SAFE_WRITE]\x7d, " ++
    "read: \x7bclasses: [SENSITIVE_READ]\x7d\x7d"

def deskPolicy : String := "policies: [\x7bstatic_rules: \x7bread: DENY\x7d\x7d]"

def deskHost : Host Id where
  read path :=
    if path = "tools" then some deskTools else if path = "old" then some deskPolicy else none
  holds _ := false
  absolute _ := none
  write _ _ := false
  now := default
  seed := ""

def deskConfig : Config := { catalog := "tools", templates := "templates" }

/-- Keeps what the file has, and adds all tools but denies the one for mail. -/
def deskChoices : Choices := { start := some "old", tools := ["m*", "*"], denied := ["mail"] }

def finder : Tool := .ofClass "find" .safeRead ""

def mailer : Tool := .ofClass "mail" .safeWrite ""

def reader : Tool := .ofClass "read" .sensitiveRead ""

theorem compiles_asked_tools_desk :
    ∃ start s, startSelection deskHost deskConfig deskChoices = .ok start ∧
      buildSelection deskHost deskConfig deskChoices = .ok ([], s) ∧
      s.toolNames = ["read", "mail", "find"] ∧
      ∃ p, (s.compile true).policies = [p] ∧
        p.gates.get? "read" = some .deny ∧ p.gates.get? "mail" = some .deny ∧
        p.gates.get? "find" = some .allow ∧ p.gates.get? "exec" = none := by
  have hstart : startSelection deskHost deskConfig deskChoices =
      .ok { tools := [⟨reader, .deny⟩] } := by decide +kernel
  have hassemble : assemble deskConfig (deskHost.loadCatalog "tools") [] deskChoices
      { tools := [⟨reader, .deny⟩] } =
      .ok { tools := [⟨reader, .deny⟩, ⟨mailer, .deny⟩, ⟨finder, .allow⟩] } := by decide +kernel
  have hbuild := (buildSelection_of_start hstart).trans
    (congrArg (Except.map fun s => (([] : List NamedRule), s)) hassemble)
  have hgates : startGates deskHost deskConfig deskChoices = [("read", .deny)] := by
    decide +kernel
  obtain ⟨-, -, p, hp, hgate⟩ := (compiles_asked_tools hstart).2 _ _ hbuild
  rw [hgates] at hgate
  refine ⟨_, _, hstart, hbuild, rfl, p, hp, ?_, ?_, ?_, ?_⟩ <;> rw [hgate] <;> decide

end desk

end Command

end TaintPolicy
