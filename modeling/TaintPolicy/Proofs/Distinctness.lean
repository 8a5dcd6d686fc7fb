import TaintPolicy.Proofs.CompiledGates
import TaintPolicy.Proofs.ExportCycle
import TaintPolicy.Proofs.RuleIds

/-!
# Distinct names and ids

A session chooses no two tools of one name and no two rules of one id. Each operation keeps this:
adding looks for the name or the id first, a rule that is written by hand gets a free id, and the
rules of a template are named by their positions. A policy that is read back has distinct tools too,
but its rules may share ids. With distinct tools every one of them has its gate in the policy.
-/

namespace TaintPolicy

/-- Starts over only from templates that were read. -/
def Operation.SelectsParsed : Operation → Prop
  | selectTemplate template _ => ∃ mode, template.IsParsed mode
  | _ => True

section tools

variable {s : Selection}

theorem nodup_toolNames_addTool (h : s.toolNames.Nodup) (t : Tool) :
    (s.addTool t).2.toolNames.Nodup := by
  rw [Selection.toolNames_addTool]
  split
  · exact h
  · next hn =>
    have hm : t.name ∉ s.toolNames := fun hm => hn (Selection.hasTool_iff.mpr hm)
    simpa using h.concat hm

theorem nodup_toolNames_addTools (h : s.toolNames.Nodup) (ts : List Tool) :
    (s.addTools ts).toolNames.Nodup := by
  induction ts generalizing s with
  | nil => exact h
  | cons t ts ih => exact ih (nodup_toolNames_addTool h t)

theorem nodup_toolNames_removeTool (h : s.toolNames.Nodup) (name : String) :
    (s.removeTool name).2.toolNames.Nodup := by
  rw [Selection.toolNames_removeTool]
  exact h.filter _

/-- Every operation keeps the names of the tools distinct. -/
theorem nodup_toolNames_run (op : Operation) (h : s.toolNames.Nodup) :
    (op.run s).toolNames.Nodup := by
  cases op with
  | addTool tool => exact nodup_toolNames_addTool h tool
  | removeTool name => exact nodup_toolNames_removeTool h name
  | toggleTool tool =>
    rw [Operation.run, Selection.toggleTool]
    split
    · exact nodup_toolNames_removeTool h tool.name
    · exact nodup_toolNames_addTool h tool
  | reorderTool name target => exact (s.toolNames_reorderTool_perm name target).nodup_iff.mpr h
  | setGate name gate => rwa [Operation.run, Selection.toolNames_setGate]
  | reclassify name c => rwa [Operation.run, Selection.toolNames_reclassify]
  | clearTools => exact List.nodup_nil
  | selectTemplate template catalog =>
    exact nodup_toolNames_addTools (s := s.clearTools) List.nodup_nil _
  | addRule rule => rwa [Operation.run, Selection.toolNames, s.tools_addRule]
  | toggleRule rule => rwa [Operation.run, Selection.toolNames, s.tools_toggleRule]
  | authorRule assigner rule =>
    rw [Operation.run]
    split
    · next ha =>
      rw [Selection.authorRule_eq_ok ha]
      exact h
    · exact h
  | rename name => exact h
  | removeRule id => exact h
  | clearTemplate => exact h
  | reset => exact List.nodup_nil

/-- The tools of a policy that is read back are added one by one. -/
theorem nodup_toolNames_foldl_restoreTool (catalog : Catalog) (gates : Fields Gate)
    (h : s.toolNames.Nodup) : (gates.foldl (restoreTool catalog) s).toolNames.Nodup := by
  induction gates generalizing s with
  | nil => exact h
  | cons g gates ih =>
    apply ih
    rw [restoreTool]
    split
    · next t _ =>
      rw [Selection.toolNames_setGate]
      exact nodup_toolNames_addTool h t
    · exact h

theorem nodup_toolNames_of_isOpening {catalog : Catalog} {mode : Mode}
    (h : IsOpening catalog mode s) : s.toolNames.Nodup := by
  rcases h with rfl | ⟨assigner, document, h⟩
  · exact List.nodup_nil
  obtain ⟨gates, rules, -, -, rfl⟩ := restore_eq_ok h
  exact nodup_toolNames_foldl_restoreTool catalog gates List.nodup_nil

end tools

section rules

variable {s : Selection}

theorem nodup_ruleIds_pushRule (h : s.ruleIds.Nodup) {r : NamedRule} (hr : r.id ∉ s.ruleIds) :
    (s.pushRule r).ruleIds.Nodup := by
  simpa [Selection.pushRule, Selection.ruleIds] using h.concat hr

theorem nodup_ruleIds_addRule (h : s.ruleIds.Nodup) (r : NamedRule) :
    (s.addRule r).2.ruleIds.Nodup := by
  rw [Selection.addRule]
  split
  · exact h
  · next hn => exact nodup_ruleIds_pushRule h fun hm => hn (Selection.hasRule_iff.mpr hm)

theorem nodup_ruleIds_removeRule (h : s.ruleIds.Nodup) (id : String) :
    (s.removeRule id).2.ruleIds.Nodup :=
  (List.filter_sublist.map _).nodup h

/-- Every operation keeps the ids of the rules distinct, as long as templates are read from texts. -/
theorem nodup_ruleIds_run {op : Operation} (ho : op.SelectsParsed) (h : s.ruleIds.Nodup) :
    (op.run s).ruleIds.Nodup := by
  cases op with
  | addRule rule => exact nodup_ruleIds_addRule h rule
  | removeRule id => exact nodup_ruleIds_removeRule h id
  | toggleRule rule =>
    rw [Operation.run, Selection.toggleRule]
    split
    · exact nodup_ruleIds_removeRule h rule.id
    · exact nodup_ruleIds_addRule h rule
  | authorRule assigner rule =>
    rw [Operation.run]
    split
    · next ha =>
      rw [Selection.authorRule_eq_ok ha]
      exact nodup_ruleIds_pushRule h (Selection.id_notMem_of_authorRule ha)
    · exact h
  | selectTemplate template catalog =>
    obtain ⟨mode, hp⟩ := ho
    exact hp.nodup_ids
  | addTool tool => rwa [Operation.run, Selection.ruleIds, s.rules_addTool]
  | toggleTool tool => rwa [Operation.run, Selection.ruleIds, s.rules_toggleTool]
  | reorderTool name target => rwa [Operation.run, Selection.ruleIds, s.rules_reorderTool]
  | rename name => exact h
  | removeTool name => exact h
  | setGate name gate => exact h
  | reclassify name c => exact h
  | clearTools => exact h
  | clearTemplate => exact List.nodup_nil
  | reset => exact List.nodup_nil

end rules

/-- No name and no id occurs twice. -/
structure Selection.IsDistinct (s : Selection) : Prop where
  tools : s.toolNames.Nodup
  rules : s.ruleIds.Nodup

theorem isDistinct_of_reachable {s : Selection}
    (h : Reachable (· = {}) Operation.SelectsParsed s) : s.IsDistinct := by
  refine h.invariant ?_ fun s op ho hs => ?_
  · rintro s rfl
    exact ⟨List.nodup_nil, List.nodup_nil⟩
  · exact ⟨nodup_toolNames_run op hs.tools, nodup_ruleIds_run ho hs.rules⟩

/-- From nothing, operations with templates that were read come to selections with distinct tools
and distinct ids. From nothing or from a policy that was read back, any operations come to
selections with distinct tools, and the compiled gates are exactly one for each of these tools. -/
theorem reachable_distinct :
    (∀ s, Reachable (· = {}) Operation.SelectsParsed s → s.toolNames.Nodup ∧ s.ruleIds.Nodup) ∧
    ∀ catalog mode s, Reachable (IsOpening catalog mode) (fun _ => True) s →
      s.toolNames.Nodup ∧
      ∀ honor, ∃ p, (s.compile honor).policies = [p] ∧ p.gates.keys.Perm s.toolNames ∧
        ∀ t ∈ s.tools, p.gates.get? t.name = some (if honor then t.gate else .allow) := by
  constructor
  · intro s h
    have hs := isDistinct_of_reachable h
    exact ⟨hs.tools, hs.rules⟩
  · intro catalog mode s h
    have hn : s.toolNames.Nodup := h.invariant (fun _ => nodup_toolNames_of_isOpening)
      fun _ op _ hs => nodup_toolNames_run op hs
    refine ⟨hn, fun honor => ⟨_, rfl, keys_compileGates_perm hn honor, ?_⟩⟩
    intro t ht
    exact get?_compileGates hn honor ht

section office

/-! A session that writes the same rule by hand twice, with a token that never changes, and removes
a rule of the template in between. -/

def officeEdits : List Operation :=
  [.selectTemplate shellTemplate officeCatalog,
    .authorRule (.random fun _ => "0") (.forTool .addTaint "read_file"), .removeRule "T-0",
    .authorRule (.random fun _ => "0") (.forTool .addTaint "read_file"),
    .addTool (.ofClass "read_file" .sensitiveRead ""),
    .toggleTool (.ofClass "shell" .unsafeExecute ""), .setGate "shell" .deny]

theorem reachable_distinct_office :
    Reachable (· = {}) Operation.SelectsParsed (officeEdits.foldl Operation.run {}) ∧
    Reachable (IsOpening officeCatalog .strict) (fun _ => True)
      (officeEdits.foldl Operation.run nightly) ∧
    (officeEdits.foldl Operation.run {}).ruleIds.Nodup ∧
    (officeEdits.foldl Operation.run nightly).toolNames.Nodup := by
  have ho : ∀ op ∈ officeEdits, op.SelectsParsed := by
    simp only [officeEdits, List.forall_mem_cons, Operation.SelectsParsed]
    exact ⟨⟨.strict, shellTemplate_isParsed⟩, by simp⟩
  have h₀ : Reachable (· = {}) Operation.SelectsParsed {} := .start rfl
  have h₁ := h₀.foldl_run ho
  have h₂ : Reachable (IsOpening officeCatalog .strict) (fun _ => True)
      (officeEdits.foldl Operation.run nightly) :=
    (Reachable.start (.inr ⟨.fingerprint, storedPolicy, rfl⟩)).foldl_run fun _ _ => trivial
  exact ⟨h₁, h₂, (reachable_distinct.1 _ h₁).2,
    (reachable_distinct.2 officeCatalog .strict _ h₂).1⟩

end office

end TaintPolicy
