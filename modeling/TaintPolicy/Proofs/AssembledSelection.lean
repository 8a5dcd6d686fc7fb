import TaintPolicy.Command.Run
import TaintPolicy.Proofs.ReadPolicies
import TaintPolicy.Proofs.Session

/-!
# Assembled selections

The choices of a command line are applied one kind after the other. Each kind goes through exactly
if its entries are good: the template is known, every glob fits a tool, every denied tool is chosen
by then, and every rule is known. What a kind makes of the selection is then a fold.
-/

namespace TaintPolicy

section folds

variable {σ α ε : Type} (next : σ → α → σ)

/-- Steps that go through exactly on good entries go through in a row exactly if all entries are
good. -/
theorem foldlM_eq_ok_iff (Inv : σ → Prop) {step : σ → α → Except ε σ} {good : α → Prop}
    (hstep : ∀ s, Inv s → ∀ a s', step s a = .ok s' ↔ good a ∧ next s a = s')
    (hnext : ∀ s, Inv s → ∀ a, Inv (next s a)) {s : σ} (hs : Inv s) {as : List α} {s' : σ} :
    as.foldlM step s = .ok s' ↔ (∀ a ∈ as, good a) ∧ as.foldl next s = s' := by
  induction as generalizing s with
  | nil => simp [pure, Except.pure]
  | cons a as ih =>
    rw [List.foldlM_cons, bind_eq_ok, List.forall_mem_cons, List.foldl_cons, and_assoc]
    constructor
    · rintro ⟨s₁, h₁, h⟩
      obtain ⟨ha, rfl⟩ := (hstep s hs a s₁).mp h₁
      exact ⟨ha, (ih (hnext s hs a)).mp h⟩
    · rintro ⟨ha, h⟩
      exact ⟨_, (hstep s hs a _).mpr ⟨ha, rfl⟩, (ih (hnext s hs a)).mpr h⟩

/-- What every step keeps, all steps keep. -/
theorem foldl_keeps {next : σ → α → σ} {β : Type} {f : σ → β} (h : ∀ s a, f (next s a) = f s)
    (s : σ) (as : List α) : f (as.foldl next s) = f s :=
  List.foldlRecOn as next (motive := fun t => f t = f s) rfl fun t ih a _ => (h t a).trans ih

end folds

theorem indexById_eq (rules : List NamedRule) :
    indexById rules = Fields.ofEntries (rules.map fun r => (r.id, r)) := by
  rw [indexById, Fields.ofEntries, List.foldl_map]

theorem mem_names_indexById {id : String} {rules : List NamedRule} :
    id ∈ Fields.names (indexById rules) ↔ id ∈ rules.map (·.id) := by
  rw [indexById_eq, Fields.mem_names_ofEntries, Fields.names, List.map_map]
  rfl

/-- The pattern is a glob that stands for the name. -/
def Glob.fits (pattern name : String) : Bool :=
  match tokens? pattern with
  | .ok tokens => accepts tokens name
  | .error _ => false

/-- The tools whose name a glob fits, in catalog order; none if it is no glob. -/
def Catalog.fitting (catalog : Catalog) (pattern : String) : List Tool :=
  catalog.tools.filter fun t => Glob.fits pattern t.name

namespace Selection

/-- Denies the tools of these names. -/
def denyAll (s : Selection) (names : List String) : Selection :=
  names.foldl (fun s name => (s.setGate name .deny).2) s

/-- Toggles the rules of the corpus that have these ids. -/
def toggleAll (corpus : List NamedRule) (s : Selection) (ids : List String) : Selection :=
  ids.foldl (fun s id => (Fields.find? id (indexById corpus)).elim s fun r => (s.toggleRule r).2) s

end Selection

namespace Command

section steps

variable {catalog : Catalog} {templates : List Template} {corpus : List NamedRule}
  {s s' : Selection}

theorem adoptTemplate_eq_ok_iff {template : Option String} :
    adoptTemplate catalog templates s template = .ok s' ↔
      (template = none ∧ s = s') ∨
      ∃ name t, template = some name ∧ templates.find? (fun t => t.name = name) = some t ∧
        s.selectTemplate t catalog = s' := by
  cases template with
  | none => simp [adoptTemplate]
  | some name => cases ht : templates.find? fun t => t.name = name <;> simp [adoptTemplate, ht]

theorem addMatching_eq_ok_iff {registry pattern : String} :
    addMatching registry catalog s pattern = .ok s' ↔
      catalog.fitting pattern ≠ [] ∧ s.addTools (catalog.fitting pattern) = s' := by
  simp only [addMatching, Catalog.glob, Catalog.fitting, Glob.fits]
  cases Glob.tokens? pattern with
  | error fault => simp
  | ok tokens =>
    rw [map_ok]
    cases catalog.tools.filter fun t => Glob.accepts tokens t.name <;> simp

theorem denyTool_eq_ok_iff {name : String} :
    denyTool s name = .ok s' ↔ name ∈ s.toolNames ∧ (s.setGate name .deny).2 = s' := by
  rw [← Selection.hasTool_iff, denyTool, Selection.setGate]
  cases s.hasTool name <;> simp

theorem toggleById_eq_ok_iff {id : String} :
    toggleById corpus s id = .ok s' ↔ id ∈ corpus.map (·.id) ∧
      ((Fields.find? id (indexById corpus)).elim s fun r => (s.toggleRule r).2) = s' := by
  rw [← mem_names_indexById, toggleById]
  cases hr : Fields.find? id (indexById corpus) with
  | none => simp [Fields.find?_eq_none_iff.mp hr]
  | some r =>
    have hm : id ∈ Fields.names (indexById corpus) := by
      by_contra hn
      simp [Fields.find?_eq_none_iff.mpr hn] at hr
    simp [hm]

theorem foldlM_addMatching_eq_ok_iff {registry : String} {patterns : List String} :
    patterns.foldlM (addMatching registry catalog) s = .ok s' ↔
      (∀ p ∈ patterns, catalog.fitting p ≠ []) ∧
      s.addTools (patterns.flatMap catalog.fitting) = s' := by
  rw [Selection.addTools, List.foldl_flatMap]
  refine foldlM_eq_ok_iff _ (fun _ => True) ?_ (fun _ _ _ => trivial) trivial
  intro u _ p u'
  exact addMatching_eq_ok_iff

theorem foldlM_denyTool_eq_ok_iff {names : List String} :
    names.foldlM denyTool s = .ok s' ↔
      (∀ name ∈ names, name ∈ s.toolNames) ∧ s.denyAll names = s' := by
  -- A gate changes no name, so that all names can be looked for at the start.
  refine foldlM_eq_ok_iff _ (fun u => u.toolNames = s.toolNames) ?_ ?_ rfl
  · intro u hu name u'
    rw [← hu]
    exact denyTool_eq_ok_iff
  · intro u hu name
    rw [Selection.toolNames_setGate, hu]

theorem foldlM_toggleById_eq_ok_iff {ids : List String} :
    ids.foldlM (toggleById corpus) s = .ok s' ↔
      (∀ id ∈ ids, id ∈ corpus.map (·.id)) ∧ s.toggleAll corpus ids = s' := by
  refine foldlM_eq_ok_iff _ (fun _ => True) ?_ (fun _ _ _ => trivial) trivial
  intro u _ id u'
  exact toggleById_eq_ok_iff

end steps

section assembly

variable {config : Config} {catalog : Catalog} {templates : List Template} {choices : Choices}
  {start s : Selection}

/-- What the choices need, and what they make of the selection once the template is adopted. -/
theorem assemble_eq_ok_iff :
    assemble config catalog templates choices start = .ok s ↔
      ∃ opened, adoptTemplate catalog templates start choices.template = .ok opened ∧
        let widened := opened.addTools (choices.tools.flatMap catalog.fitting)
        (∀ p ∈ choices.tools, catalog.fitting p ≠ []) ∧
        (∀ name ∈ choices.denied, name ∈ widened.toolNames) ∧
        (∀ id ∈ choices.rules, id ∈ (corpusOf templates).map (·.id)) ∧
        nameSelection config.policyName choices.name
          ((widened.denyAll choices.denied).toggleAll (corpusOf templates) choices.rules) = s := by
  simp only [assemble, bind_eq_ok, foldlM_addMatching_eq_ok_iff, foldlM_denyTool_eq_ok_iff,
    foldlM_toggleById_eq_ok_iff, Except.ok.injEq]
  refine exists_congr fun opened => and_congr_right fun _ => ?_
  constructor
  · rintro ⟨_, ⟨hp, rfl⟩, _, ⟨hd, rfl⟩, _, ⟨hr, rfl⟩, rfl⟩
    exact ⟨hp, hd, hr, rfl⟩
  · rintro ⟨hp, hd, hr, rfl⟩
    exact ⟨_, ⟨hp, rfl⟩, _, ⟨hd, rfl⟩, _, ⟨hr, rfl⟩, rfl⟩

end assembly

section project

variable (host : Host Id) (config : Config) (choices : Choices)

/-- The document of the policy file to start from; without one there is nothing in it. -/
def startDocument : Json :=
  match choices.start with
  | none => .null
  | some path =>
    match host.read path with
    | none => .null
    | some text =>
      match Yaml.read text with
      | .ok document => document
      | .error _ => .null

/-- The selection that the policy file to start from is read as. -/
def startSelection : Except Complaint Selection :=
  match choices.start with
  | none => .ok {}
  | some path =>
    restoreFile (host.loadCatalog config.catalog) (config.identity.assigner host.seed) config.mode
      path (host.read path)

/-- The selection that the choices make in a project. -/
theorem buildSelection_eq :
    buildSelection host config choices =
      let templates := host.loadTemplates config.mode config.templates
      (startSelection host config choices).bind fun start =>
        (assemble config (host.loadCatalog config.catalog) templates choices start).map fun s =>
          (corpusOf templates, s) := by
  rw [buildSelection, startSelection]
  cases choices.start <;> rfl

variable {host config choices} {start s : Selection} {corpus : List NamedRule}

theorem buildSelection_of_start (h : startSelection host config choices = .ok start) :
    let templates := host.loadTemplates config.mode config.templates
    buildSelection host config choices =
      (assemble config (host.loadCatalog config.catalog) templates choices start).map fun s =>
        (corpusOf templates, s) := by
  rw [buildSelection_eq, h]
  rfl

theorem buildSelection_of_assemble {templates : List Template}
    (hstart : startSelection host config choices = .ok start)
    (hload : host.loadTemplates config.mode config.templates = templates)
    (hs : assemble config (host.loadCatalog config.catalog) templates choices start = .ok s) :
    buildSelection host config choices = .ok (corpusOf templates, s) := by
  subst hload
  rw [buildSelection_of_start hstart, hs]
  rfl

theorem buildSelection_eq_ok (h : buildSelection host config choices = .ok (corpus, s)) :
    ∃ start, startSelection host config choices = .ok start ∧
      assemble config (host.loadCatalog config.catalog)
        (host.loadTemplates config.mode config.templates) choices start = .ok s := by
  rw [buildSelection_eq] at h
  obtain ⟨start, hstart, h⟩ := bind_eq_ok.mp h
  obtain ⟨s', hs, he⟩ := map_eq_ok.mp h
  cases he
  exact ⟨start, hstart, hs⟩

/-- What the choices start from is the policy of the document to start from. -/
theorem restore_startDocument (h : startSelection host config choices = .ok start) :
    restore (host.loadCatalog config.catalog) (config.identity.assigner host.seed) config.mode
      (startDocument host choices) = .ok start := by
  rw [startSelection] at h
  rw [startDocument]
  cases hp : choices.start with
  | none =>
    rw [hp] at h
    cases h
    rfl
  | some path =>
    rw [hp] at h
    cases ht : host.read path with
    | none => simp [restoreFile, ht] at h
    | some text =>
      simp only [restoreFile, ht, restoreText] at h
      cases hd : Yaml.read text with
      | error fault => simp [hd] at h
      | ok document =>
        rw [hd, ok_bind] at h
        split at h
        · next hr =>
          cases h
          simpa [ht, hd] using hr
        · cases h

end project

end Command

end TaintPolicy
