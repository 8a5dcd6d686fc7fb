import TaintPolicy.Proofs.AssembledSelection

/-!
# Policy names

Where the name of a compiled policy comes from: the option, the file to start from, the
configuration, or else the default. Nothing but the last step of the assembly touches the name, and
a name that was asked for is taken there whatever it is. So an option with a blank name hides the
other two names and does not fall back to them.
-/

namespace TaintPolicy

/-- The first of the names that is not blank, without the blanks around it. -/
def firstNamed : List String → String
  | [] => defaultPolicyName
  | name :: names => if trim name = "" then firstNamed names else trim name

theorem firstNamed_of_blank {name : String} (h : trim name = "") (names : List String) :
    firstNamed (name :: names) = firstNamed names := by
  rw [firstNamed, if_pos h]

theorem firstNamed_of_not_blank {name : String} (h : trim name ≠ "") (names : List String) :
    firstNamed (name :: names) = trim name := by
  rw [firstNamed, if_neg h]

theorem policyName_eq_firstNamed (name : String) : policyName name = firstNamed [name] := rfl

/-- The name that the first policy of a document bears; empty if it bears none. -/
def documentName (document : Json) : String :=
  (((firstPolicy? document).bind fun policy => policy.get? "name").bind Json.text?).getD ""

section frames

variable (s : Selection)

theorem policyName_addTools (ts : List Tool) : (s.addTools ts).policyName = s.policyName :=
  foldl_keeps Selection.policyName_addTool s ts

theorem policyName_denyAll (names : List String) :
    (s.denyAll names).policyName = s.policyName := by
  refine foldl_keeps (f := Selection.policyName) (fun s name => ?_) s names
  rfl

theorem policyName_toggleAll (corpus : List NamedRule) (ids : List String) :
    (s.toggleAll corpus ids).policyName = s.policyName := by
  refine foldl_keeps (f := Selection.policyName) (fun s id => ?_) s ids
  cases Fields.find? id (indexById corpus) with
  | none => rfl
  | some r => exact s.policyName_toggleRule r

theorem policyName_restoreTool (catalog : Catalog) (g : String × Gate) :
    (restoreTool catalog s g).policyName = s.policyName := by
  rw [restoreTool]
  split
  · next t _ => exact s.policyName_addTool t
  · rfl

end frames

/-- A policy is read back under the name that it bears. -/
theorem policyName_of_restore {catalog : Catalog} {assigner : Assigner} {mode : Mode}
    {document : Json} {s : Selection} (h : restore catalog assigner mode document = .ok s) :
    s.policyName = documentName document := by
  obtain ⟨gates, rules, -, -, rfl⟩ := restore_eq_ok h
  have hempty : ∀ t : Option String, (nonEmpty t).getD "" = t.getD "" := by
    intro t
    by_cases ht : t = some ""
    · rw [ht]
      rfl
    · cases t with
      | none => rfl
      | some name => rw [nonEmpty_of_ne fun he => ht (he ▸ rfl)]
  have hframe : (restoredFrame catalog document gates).policyName =
      ((firstPolicy? document).bind fun policy => policy.firstText? ["name"]).getD "" :=
    foldl_keeps (policyName_restoreTool · catalog) _ gates
  rw [documentName, ← hempty]
  refine hframe.trans ?_
  cases firstPolicy? document with
  | none => rfl
  | some policy => simp [firstText?_one]

namespace Command

theorem policyName_of_adoptTemplate {catalog : Catalog} {templates : List Template}
    {s opened : Selection} {template : Option String}
    (h : adoptTemplate catalog templates s template = .ok opened) :
    opened.policyName = s.policyName := by
  rcases adoptTemplate_eq_ok_iff.mp h with ⟨-, rfl⟩ | ⟨-, t, -, -, rfl⟩
  · rfl
  · exact policyName_addTools s.clearTools _

/-- Only the last step of the assembly sets a name. -/
theorem policyName_of_assemble {config : Config} {catalog : Catalog} {templates : List Template}
    {choices : Choices} {start s : Selection}
    (h : assemble config catalog templates choices start = .ok s) :
    s.policyName = match choices.name with
      | some name => name
      | none => if trim start.policyName = "" then config.policyName else start.policyName := by
  obtain ⟨opened, hopened, -, -, -, rfl⟩ := assemble_eq_ok_iff.mp h
  let toggled := ((opened.addTools (choices.tools.flatMap catalog.fitting)).denyAll
    choices.denied).toggleAll (corpusOf templates) choices.rules
  have hname : toggled.policyName = start.policyName := by
    simp only [toggled, policyName_toggleAll, policyName_denyAll, policyName_addTools,
      policyName_of_adoptTemplate hopened]
  cases choices.name with
  | some name => rfl
  | none =>
    simp only [nameSelection, ← hname]
    split <;> rfl

section project

variable {host : Host Id} {config : Config} {choices : Choices} {corpus : List NamedRule}
  {s : Selection}

/-- The compiled name is the requested one, blank or not; without one, the first of the imported and
the configured name that is not blank. -/
theorem policyName_of_buildSelection (h : buildSelection host config choices = .ok (corpus, s)) :
    policyName s.policyName = match choices.name with
      | some name => firstNamed [name]
      | none => firstNamed [documentName (startDocument host choices), config.policyName] := by
  obtain ⟨start, hstart, h⟩ := buildSelection_eq_ok h
  rw [policyName_of_assemble h, ← policyName_of_restore (restore_startDocument hstart)]
  cases choices.name with
  | some name => rfl
  | none =>
    by_cases hb : trim start.policyName = ""
    · simp only [if_pos hb, firstNamed_of_blank hb, policyName_eq_firstNamed]
    · simp only [if_neg hb, firstNamed_of_not_blank hb, policyName_eq_firstNamed]

/-- The compiled policy and the stub of the customer share one name: the requested name alone where
one is requested, blank or not, and otherwise the first of the imported and the configured name that
is not blank. So the compiled name is the first of all three exactly if no blank name is requested,
or if the other two come to the default name anyway. -/
theorem compiled_name_is_first_iff (h : buildSelection host config choices = .ok (corpus, s))
    (honor : Bool) :
    let imported := documentName (startDocument host choices)
    ∃ name, (s.compile honor).policies.map (·.name) = [name] ∧
      (s.compile honor).customers.map (·.policyName) = [name] ∧
      (∀ requested, choices.name = some requested → name = firstNamed [requested]) ∧
      (choices.name = none → name = firstNamed [imported, config.policyName]) ∧
      (name = firstNamed [choices.name.getD "", imported, config.policyName] ↔
        ∀ requested, choices.name = some requested → trim requested = "" →
          firstNamed [imported, config.policyName] = defaultPolicyName) := by
  have hname := policyName_of_buildSelection h
  refine ⟨policyName s.policyName, rfl, rfl, ?_⟩
  rw [hname]
  cases hc : choices.name with
  | none =>
    have hblank : trim "" = "" := by decide
    simp [firstNamed_of_blank hblank]
  | some requested =>
    refine ⟨fun r hr => Option.some.inj hr ▸ rfl, fun hn => (Option.some_ne_none _ hn).elim, ?_⟩
    rw [Option.getD_some]
    by_cases hb : trim requested = ""
    · simp only [firstNamed_of_blank hb]
      exact ⟨fun he _ _ _ => he.symm, fun hr => (hr requested rfl hb).symm⟩
    · simp only [firstNamed_of_not_blank hb]
      exact iff_of_true trivial fun r hr ht => absurd (Option.some.inj hr ▸ ht) hb

end project

section blankName

/-! A blank option beside a configured name. -/

/-- A machine without files. -/
def bareHost : Host Id where
  read _ := none
  holds _ := false
  absolute _ := none
  write _ _ := false
  now := default
  seed := ""

def teamConfig : Config := { policyName := "team" }

theorem compiled_name_is_first_blank :
    ∃ s, buildSelection bareHost teamConfig { name := some " " } = .ok ([], s) ∧
      ∃ name, (s.compile true).policies.map (·.name) = [name] ∧
        (s.compile true).customers.map (·.policyName) = [name] ∧ name = "default_policy" := by
  have hbuild : buildSelection bareHost teamConfig { name := some " " } =
      .ok ([], { policyName := " " }) := rfl
  obtain ⟨name, hp, hc, hr, -, -⟩ := compiled_name_is_first_iff hbuild true
  exact ⟨_, hbuild, name, hp, hc, (hr " " rfl).trans (by decide)⟩

/-- With a blank option the compiled name need not be the first that is not blank. -/
theorem blank_name_hides_configured :
    ¬ ∀ (host : Host Id) (config : Config) (choices : Choices) (corpus : List NamedRule)
        (s : Selection), buildSelection host config choices = .ok (corpus, s) →
      let imported := documentName (startDocument host choices)
      (s.compile true).policies.map (·.name) =
        [firstNamed [choices.name.getD "", imported, config.policyName]] := by
  intro hall
  have hbuild : buildSelection bareHost teamConfig { name := some " " } =
      .ok ([], { policyName := " " }) := rfl
  have hname := hall _ _ _ _ _ hbuild
  exact absurd hname (by decide)

end blankName

end Command

end TaintPolicy
