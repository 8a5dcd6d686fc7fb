import TaintPolicy.Proofs.CompiledGates
import TaintPolicy.Proofs.RuleCodec
import TaintPolicy.Proofs.Session
import TaintPolicy.Restore

/-!
# Restoring what was compiled

Reads a compiled policy file back. The selection that comes of it has the compiled name, the tools
of the catalog that the file gates, in key order, and the normal forms of the rules, each under the
id of its position. A further round of compiling and restoring changes nothing of it.
-/

namespace TaintPolicy

section gates

theorem readGates_toJson (mode : Mode) (m : KeyMap Gate) :
    readGates mode (some (m.toJson Gate.toJson)) = .ok m.entries := by
  have hr : ∀ e ∈ m.entries, readGate mode (e.1, e.2.toJson) = .ok (some e) := by
    intro e _
    simp [readGate, Gate.toJson]
  simpa [readGates, KeyMap.toJson, Json.fields?] using collect_map_some id hr

/-- The tools of the catalog that a file gates, in the order of the file. -/
def restoredTools (catalog : Catalog) (gates : Fields Gate) : List Selected :=
  gates.filterMap fun g => (catalog.get? g.1).map fun t => ⟨t, g.2⟩

theorem Selection.changeFirst_append {name : String} {change : Selected → Selected}
    {ts : List Selected} (h : name ∉ ts.map Selected.name) (us : List Selected) :
    changeFirst name change (ts ++ us) = ts ++ changeFirst name change us := by
  induction ts with
  | nil => rfl
  | cons t ts ih =>
    rw [List.map_cons, List.mem_cons, not_or] at h
    rw [List.cons_append, changeFirst, if_neg (Ne.symm h.1), ih h.2, List.cons_append]

/-- A tool whose name is not chosen yet is added with the gate of the file. -/
theorem restoreTool_of_notMem {catalog : Catalog} {s : Selection} {g : String × Gate}
    (h : g.1 ∉ s.toolNames) :
    restoreTool catalog s g = { s with tools := s.tools ++ restoredTools catalog [g] } := by
  simp only [restoreTool]
  cases ht : catalog.get? g.1 with
  | none => simp [restoredTools, ht]
  | some t =>
    have hname := Catalog.name_of_get? ht
    have hadd := Selection.addTool_of_notMem (hname.symm ▸ h)
    have hset : Selection.changeFirst g.1 (fun t => { t with gate := g.2 }) [⟨t, .allow⟩] =
        [⟨t, g.2⟩] := by
      rw [Selection.changeFirst, Selected.name, if_pos hname]
    simp only [hadd, Selection.setGate, Selection.changeFirst_append h, hset, restoredTools,
      List.filterMap_cons, ht, Option.map_some, List.filterMap_nil]

/-- The restored tools have the gates of the entries that the catalog knows. -/
theorem map_restoredTools (catalog : Catalog) (gates : Fields Gate) :
    (restoredTools catalog gates).map (fun t => (t.name, t.gate)) =
      gates.filter fun g => (catalog.get? g.1).isSome := by
  induction gates with
  | nil => rfl
  | cons g gates ih =>
    rw [restoredTools] at ih ⊢
    cases ht : catalog.get? g.1 with
    | none => simp [ht, ih]
    | some t =>
      have hname : Selected.name ⟨t, g.2⟩ = g.1 := Catalog.name_of_get? ht
      simp [ht, ih, hname]

theorem names_restoredTools_sublist (catalog : Catalog) (gates : Fields Gate) :
    ((restoredTools catalog gates).map Selected.name).Sublist (Fields.names gates) := by
  have hm := congrArg (List.map (·.1)) (map_restoredTools catalog gates)
  rw [List.map_map] at hm
  exact hm ▸ List.filter_sublist.map _

/-- The tools of a file with distinct names are added in the order of the file. -/
theorem foldl_restoreTool (catalog : Catalog) {gates : Fields Gate}
    (hn : (Fields.names gates).Nodup) {s : Selection}
    (hd : ∀ name ∈ Fields.names gates, name ∉ s.toolNames) :
    gates.foldl (restoreTool catalog) s =
      { s with tools := s.tools ++ restoredTools catalog gates } := by
  induction gates generalizing s with
  | nil => simp [restoredTools]
  | cons g gates ih =>
    rw [Fields.names_cons, List.nodup_cons] at hn
    have hc : restoredTools catalog (g :: gates) =
        restoredTools catalog [g] ++ restoredTools catalog gates := by
      simp only [restoredTools, ← List.filterMap_append, List.singleton_append]
    rw [List.foldl_cons, restoreTool_of_notMem (hd g.1 (by simp)), ih hn.2, hc, List.append_assoc]
    intro name hname hm
    rw [Selection.toolNames, List.map_append, List.mem_append] at hm
    rcases hm with hm | hm
    · exact hd name (by simp [hname]) hm
    · have hg : name = g.1 := by simpa using (names_restoredTools_sublist catalog [g]).subset hm
      exact hn.1 (hg ▸ hname)

end gates

section policies

theorem policyName_ne_empty (requested : String) : policyName requested ≠ "" := by
  unfold policyName
  dsimp only
  split
  · decide
  · assumption

theorem policyName_policyName (requested : String) :
    policyName (policyName requested) = policyName requested := by
  have hd : policyName defaultPolicyName = defaultPolicyName := by decide
  by_cases h : trim requested = ""
  · have hr : policyName requested = defaultPolicyName := by rw [policyName, if_pos h]
    rw [hr, hd]
  · have hr : policyName requested = trim requested := by rw [policyName, if_neg h]
    rw [hr, policyName, trim_trim, if_neg h]

/-- Only where overrides are honored can a gate be other than `ALLOW`. -/
theorem gate_of_mem_compileGates {honor : Bool} {tools : List Selected} {g : String × Gate}
    (h : g ∈ (compileGates honor tools).entries) :
    g.1 ∈ tools.map Selected.name ∧ (if honor then g.2 else .allow) = g.2 := by
  obtain ⟨t, ht, rfl⟩ := List.mem_map.mp (KeyMap.mem_of_mem_ofList h)
  refine ⟨List.mem_map_of_mem ht, ?_⟩
  cases honor <;> rfl

/-- Compiling restored tools again keeps the gates of the tools that the catalog knows. -/
theorem entries_compileGates_restoredTools (catalog : Catalog) (honor : Bool)
    (tools : List Selected) :
    (compileGates honor (restoredTools catalog (compileGates honor tools).entries)).entries =
      (compileGates honor tools).entries.filter fun g => (catalog.get? g.1).isSome := by
  let gates := (compileGates honor tools).entries.filter fun g => (catalog.get? g.1).isSome
  have hm : (restoredTools catalog (compileGates honor tools).entries).map
      (fun t => (t.name, if honor then t.gate else .allow)) = gates := by
    calc
      _ = ((restoredTools catalog (compileGates honor tools).entries).map
            fun t => (t.name, t.gate)).map fun g => (g.1, if honor then g.2 else .allow) := by
          rw [List.map_map]
          rfl
      _ = gates.map fun g => (g.1, if honor then g.2 else .allow) := by rw [map_restoredTools]
      _ = gates.map id := by
          apply List.map_congr_left
          intro g hg
          rw [(gate_of_mem_compileGates (List.mem_filter.mp hg).1).2]
          rfl
      _ = gates := List.map_id _
  rw [compileGates, hm]
  exact KeyMap.entries_ofList ((compileGates honor tools).sorted.filter _)

/-- The first policy of a file and the values of its keys are found where they were written. -/
theorem firstPolicy?_toJson (customers : List Customer) (p : Policy) (ps : List Policy) :
    firstPolicy? (PolicyFile.toJson ⟨customers, p :: ps⟩) = some p.toJson := by
  simp [firstPolicy?, listedEntries, firstPresent?_one, PolicyFile.toJson, Fields.find?,
    Option.filter_some, Json.isNull, Json.items?]

theorem firstPresent?_policy (p : Policy) :
    p.toJson.firstPresent? ["static_rules", "staticRules"] = some (p.gates.toJson Gate.toJson) ∧
    listedEntries p.toJson ["taint_rules", "taintRules"] = p.rules.map Entry.toJson ∧
    p.toJson.firstText? ["name"] = nonEmpty (some p.name) := by
  refine ⟨?_, ?_, ?_⟩
  · have hn : (p.gates.toJson Gate.toJson).isNull = false := rfl
    simp [firstPresent?_two, Policy.toJson, Fields.find?, Option.filter_some, hn]
  · simp [listedEntries, firstPresent?_two, Policy.toJson, Fields.find?, Option.filter_some,
      Json.isNull, Json.items?]
  · simp [firstText?_one, Policy.toJson]

/-- The rules of a file in normal form, each under the id of its position. -/
def restoredRules (assigner : Assigner) (rules : List NamedRule) : List NamedRule :=
  rules.zipIdx.map fun r => assigner.name r.2 r.1.rule.normal none none

theorem collect_restoreRule {assigner : Assigner} {mode : Mode} {rules : List NamedRule}
    (h : ∀ r ∈ rules, checkTarget mode r.rule = .ok ()) :
    collect (restoreRule assigner mode)
      (numbered ((rules.map fun r => r.rule.toEntry).map Entry.toJson)) =
      .ok (restoredRules assigner rules) := by
  rw [numbered, List.map_map, List.zipIdx_map]
  apply collect_map_some
  intro r hr
  have hread : readRule mode r.1.rule.toEntry.toJson =
      .ok (some ⟨r.1.rule.normal, none, none⟩) := by
    rw [readRule_toEntry, h r.1 (List.fst_mem_of_mem_zipIdx hr), map_ok]
  simp [restoreRule, hread]

/-- What a compiled policy file is read back as, in a mode that accepts the targets of its rules. -/
theorem restore_compile {catalog : Catalog} {assigner : Assigner} {mode : Mode} {honor : Bool}
    {s : Selection} (h : ∀ r ∈ s.rules, checkTarget mode r.rule = .ok ()) :
    restore catalog assigner mode (s.compile honor).toJson = .ok {
      policyName := policyName s.policyName
      tools := restoredTools catalog (compileGates honor s.tools).entries
      rules := restoredRules assigner s.rules
      activeTemplate := none } := by
  let p : Policy :=
    ⟨policyName s.policyName, compileGates honor s.tools, s.rules.map fun r => r.rule.toEntry⟩
  have hf : (s.compile honor).toJson =
      PolicyFile.toJson ⟨[{ policyName := policyName s.policyName }], [p]⟩ := rfl
  obtain ⟨hg, hr, hn⟩ := firstPresent?_policy p
  have htools := foldl_restoreTool catalog (compileGates honor s.tools).nodup_names
    (s := { policyName := policyName s.policyName }) (by simp [Selection.toolNames])
  rw [restore, hf, firstPolicy?_toJson]
  simp only [hg, hr, hn, p, readGates_toJson, ok_bind, collect_restoreRule h,
    nonEmpty_of_ne (policyName_ne_empty _), Option.getD_some, htools, List.nil_append]

end policies

section cycles

/-- Tools that the catalog does not know are lost once. -/
theorem restoredTools_filter (catalog : Catalog) (gates : Fields Gate) :
    restoredTools catalog (gates.filter fun g => (catalog.get? g.1).isSome) =
      restoredTools catalog gates := by
  simp only [restoredTools, List.filterMap_filter]
  apply List.filterMap_congr
  intro g _
  cases catalog.get? g.1 <;> rfl

/-- Restored rules are in normal form and named by their positions, which they keep. -/
theorem restoredRules_restoredRules (assigner : Assigner) (rules : List NamedRule) :
    restoredRules assigner (restoredRules assigner rules) = restoredRules assigner rules := by
  apply List.ext_getElem
  · simp [restoredRules]
  · intro i h₁ h₂
    simp [restoredRules, Assigner.name, Rule.normal_normal]

/-- Whatever a selection holds, one round of compiling it and restoring the file leads to a
selection that a further round gives back as a whole, ids included. -/
theorem restore_compile_restored (catalog : Catalog) (honor : Bool) (s : Selection) :
    ∃ s', restore catalog .fingerprint .lenient (s.compile honor).toJson = .ok s' ∧
      restore catalog .fingerprint .lenient (s'.compile honor).toJson = .ok s' := by
  refine ⟨_, restore_compile fun r _ => checkTarget_lenient r.rule, ?_⟩
  rw [restore_compile fun r _ => checkTarget_lenient r.rule]
  simp only [policyName_policyName, entries_compileGates_restoredTools, restoredTools_filter,
    restoredRules_restoredRules]

end cycles

end TaintPolicy
