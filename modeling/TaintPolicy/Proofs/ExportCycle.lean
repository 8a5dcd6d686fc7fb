import TaintPolicy.Proofs.ReadPolicies
import TaintPolicy.Proofs.Restoration

/-!
# Exporting and importing within a session

A session that draws its tools from one catalog and its rules from templates keeps its selection
exportable: the catalog knows every chosen tool, and the reader could have made every chosen rule.
The policy file of such a selection is restored without a fault, in either mode, and the restored
selection compiles to the same file.
-/

namespace TaintPolicy

/-- A session opens with nothing chosen or with a policy that was restored. -/
def IsOpening (catalog : Catalog) (mode : Mode) (s : Selection) : Prop :=
  s = {} ∨ ∃ assigner document, restore catalog assigner mode document = .ok s

/-- Draws tools from the catalog and rules from templates; rules written by hand are left out. -/
def Operation.IsDrawnFrom (catalog : Catalog) (mode : Mode) : Operation → Prop
  | addTool tool | toggleTool tool => tool ∈ catalog.tools
  | addRule rule | toggleRule rule =>
    ∃ ts : List Template, (∀ t ∈ ts, t.IsParsed mode) ∧ rule ∈ corpusOf ts
  | selectTemplate template catalog' => template.IsParsed mode ∧ catalog' = catalog
  | authorRule _ _ => False
  | _ => True

/-- The catalog knows every tool, and the reader could have made every rule. -/
structure Selection.IsExportable (catalog : Catalog) (mode : Mode) (s : Selection) : Prop where
  tools : ∀ name ∈ s.toolNames, (catalog.get? name).isSome
  rules : ∀ r ∈ s.rules, r.rule.IsReadable mode

section invariant

variable {catalog : Catalog} {mode : Mode}

theorem Operation.IsDrawnFrom.mem_tools {op : Operation} (h : op.IsDrawnFrom catalog mode) {t : Tool}
    (ht : t ∈ op.offeredTools) : t ∈ catalog.tools := by
  cases op with
  | addTool tool => rw [List.mem_singleton.mp ht]; exact h
  | toggleTool tool => rw [List.mem_singleton.mp ht]; exact h
  | selectTemplate template catalog' =>
    obtain ⟨name, -, hg⟩ := List.mem_filterMap.mp ht
    exact Catalog.mem_of_get? (h.2 ▸ hg)
  | _ => cases ht

theorem isReadable_of_mem_corpusOf {ts : List Template} (h : ∀ t ∈ ts, t.IsParsed mode)
    {r : NamedRule} (hr : r ∈ corpusOf ts) : r.rule.IsReadable mode := by
  obtain ⟨t, ht, hr⟩ := List.mem_flatMap.mp hr
  exact (h t ht).isReadable hr

theorem Operation.IsDrawnFrom.isReadable {op : Operation} (h : op.IsDrawnFrom catalog mode)
    {s : Selection} {r : NamedRule} (hr : r ∈ op.offeredRules s) : r.rule.IsReadable mode := by
  cases op with
  | addRule rule =>
    obtain ⟨ts, ht, hm⟩ := h
    rw [List.mem_singleton.mp hr]
    exact isReadable_of_mem_corpusOf ht hm
  | toggleRule rule =>
    obtain ⟨ts, ht, hm⟩ := h
    rw [List.mem_singleton.mp hr]
    exact isReadable_of_mem_corpusOf ht hm
  | selectTemplate template catalog' => exact h.1.isReadable hr
  | authorRule assigner rule => cases h
  | _ => cases hr

/-- One operation keeps a selection exportable. -/
theorem isExportable_run {s : Selection} {op : Operation} (h : op.IsDrawnFrom catalog mode)
    (hs : s.IsExportable catalog mode) : (op.run s).IsExportable catalog mode := by
  constructor
  · intro name hname
    rcases Operation.mem_toolNames_run hname with hn | ⟨t, ht, rfl⟩
    · exact hs.tools name hn
    · exact Catalog.isSome_get?_of_mem (h.mem_tools ht)
  · intro r hr
    rcases Operation.mem_rules_run hr with hr | hr
    · exact hs.rules r hr
    · exact h.isReadable hr

theorem mem_toolNames_restoreTool {s : Selection} {g : String × Gate} {name : String}
    (h : name ∈ (restoreTool catalog s g).toolNames) :
    name ∈ s.toolNames ∨ (catalog.get? name).isSome := by
  simp only [restoreTool] at h
  cases hg : catalog.get? g.1 with
  | none => rw [hg] at h; exact .inl h
  | some t =>
    simp only [hg, Selection.toolNames_setGate] at h
    rcases Selection.mem_toolNames_addTool h with hn | rfl
    · exact .inl hn
    · exact .inr (Catalog.isSome_get?_of_mem (Catalog.mem_of_get? hg))

/-- Restoring adds only tools that the catalog knows. -/
theorem mem_toolNames_foldl_restoreTool {gates : Fields Gate} {s : Selection} {name : String}
    (h : name ∈ (gates.foldl (restoreTool catalog) s).toolNames) :
    name ∈ s.toolNames ∨ (catalog.get? name).isSome := by
  induction gates generalizing s with
  | nil => exact .inl h
  | cons g gates ih =>
    rcases ih h with hn | hn
    · exact mem_toolNames_restoreTool hn
    · exact .inr hn

theorem isExportable_of_restore {assigner : Assigner} {document : Json} {s : Selection}
    (h : restore catalog assigner mode document = .ok s) : s.IsExportable catalog mode := by
  obtain ⟨gates, rules, -, hr, rfl⟩ := restore_eq_ok h
  constructor
  · intro name hname
    exact (mem_toolNames_foldl_restoreTool hname).resolve_left (by simp [Selection.toolNames])
  · intro r hm
    obtain ⟨entry, -, hentry⟩ := exists_of_mem_collect hr hm
    obtain ⟨read, hread, hread'⟩ := map_eq_ok.mp hentry
    obtain ⟨read, rfl, rfl⟩ := Option.map_eq_some_iff.mp hread'
    exact isReadable_of_readRule hread

/-- Every selection that such a session comes to is exportable. -/
theorem isExportable_of_reachable {s : Selection}
    (h : Reachable (IsOpening catalog mode) (Operation.IsDrawnFrom catalog mode) s) :
    s.IsExportable catalog mode := by
  refine h.invariant ?_ fun s op ho hs => isExportable_run ho hs
  rintro s (rfl | ⟨assigner, document, hr⟩)
  · exact ⟨by simp [Selection.toolNames], by simp⟩
  · exact isExportable_of_restore hr

end invariant

section cycle

variable {catalog : Catalog} {mode : Mode} {s : Selection}

/-- Every gate of an exportable selection finds its tool again. -/
theorem compileGates_restoredTools (h : s.IsExportable catalog mode) (honor : Bool) :
    compileGates honor (restoredTools catalog (compileGates honor s.tools).entries) =
      compileGates honor s.tools := by
  apply KeyMap.ext
  rw [entries_compileGates_restoredTools]
  apply List.filter_eq_self.mpr
  intro g hg
  exact h.tools g.1 (gate_of_mem_compileGates hg).1

/-- Rules that a reader made compile to the same entries after they are restored. -/
theorem toEntry_restoredRules (h : s.IsExportable catalog mode) (assigner : Assigner) :
    (restoredRules assigner s.rules).map (fun r => r.rule.toEntry) =
      s.rules.map fun r => r.rule.toEntry := by
  apply List.ext_getElem
  · simp [restoredRules]
  · intro i h₁ h₂
    have hi : i < s.rules.length := by simpa using h₂
    simp [restoredRules, Assigner.name, (h.rules s.rules[i] (List.getElem_mem hi)).normal_eq]

/-- Exporting, importing and exporting again gives the file of the first export, whatever a session
over the catalog did before. -/
theorem compile_restore_compile (honor : Bool) (assigner : Assigner)
    (h : Reachable (IsOpening catalog mode) (Operation.IsDrawnFrom catalog mode) s) :
    ∃ s', restore catalog assigner mode (s.compile honor).toJson = .ok s' ∧
      s'.compile honor = s.compile honor := by
  have hs := isExportable_of_reachable h
  refine ⟨_, restore_compile fun r hr => (hs.rules r hr).target_ok, ?_⟩
  simp only [Selection.compile, compileParts, policyName_policyName,
    compileGates_restoredTools hs, toEntry_restoredRules hs]

end cycle

section nightly

/-! A session over two tools that opens with a stored policy and draws a rule from a template. -/

def officeCatalog : Catalog :=
  ⟨[.ofClass "shell" .unsafeExecute "", .ofClass "read_file" .sensitiveRead ""]⟩

def storedPolicy : Json :=
  .obj [("policies", .arr [.obj [
    ("name", .str " nightly "),
    ("static_rules", .obj [("shell", .str "DENY")]),
    ("taint_rules", .arr [.obj [("id", .str "r-1"), ("action", .str "ADD_TAINT"),
      ("toolClass", .str "SENSITIVE_READ"), ("tag", .str "pii")]])]])]

def nightly : Selection where
  policyName := " nightly "
  tools := [⟨.ofClass "shell" .unsafeExecute "", .deny⟩]
  rules := [⟨"r-1", importedSource,
    { action := .addTaint, toolClass := some .sensitiveRead, tag := some "pii" }⟩]

def shellTemplate : Template :=
  ⟨"T", "", [], [⟨"T-0", "T", .forTool .checkTaint "shell"⟩]⟩

theorem shellTemplate_isParsed : shellTemplate.IsParsed .strict :=
  ⟨"rule_templates:\n- name: T\n  taint_rules:\n  - action: CHECK_TAINT\n    tool: shell\n",
    [shellTemplate], by decide +kernel, by simp⟩

/-- Puts a second tool first, gates both, and adds the rule of the template. -/
def nightlyEdits : List Operation :=
  [.addTool (.ofClass "read_file" .sensitiveRead ""), .reorderTool "read_file" "shell",
    .setGate "shell" .allow, .setGate "read_file" .deny,
    .toggleRule ⟨"T-0", "T", .forTool .checkTaint "shell"⟩]

theorem nightlyEdits_isDrawnFrom :
    ∀ op ∈ nightlyEdits, op.IsDrawnFrom officeCatalog .strict := by
  have ht : ∀ t ∈ [shellTemplate], t.IsParsed .strict := by simp [shellTemplate_isParsed]
  simp only [nightlyEdits, List.forall_mem_cons, Operation.IsDrawnFrom, true_and]
  exact ⟨by simp [officeCatalog], ⟨[shellTemplate], ht, by decide⟩, by simp⟩

theorem compile_restore_compile_nightly :
    Reachable (IsOpening officeCatalog .strict) (Operation.IsDrawnFrom officeCatalog .strict)
      (nightlyEdits.foldl Operation.run nightly) ∧
    ∃ s', restore officeCatalog .fingerprint .strict
        ((nightlyEdits.foldl Operation.run nightly).compile true).toJson = .ok s' ∧
      s'.compile true = (nightlyEdits.foldl Operation.run nightly).compile true := by
  have h₀ : Reachable (IsOpening officeCatalog .strict)
      (Operation.IsDrawnFrom officeCatalog .strict) nightly :=
    .start (.inr ⟨.fingerprint, storedPolicy, rfl⟩)
  have h := h₀.foldl_run nightlyEdits_isDrawnFrom
  exact ⟨h, compile_restore_compile true .fingerprint h⟩

end nightly

end TaintPolicy
