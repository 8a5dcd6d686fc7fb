import TaintPolicy.Proofs.ReadTemplates
import TaintPolicy.Restore

/-!
# Policies that were read

What reading a policy back promises of the selection: its name and tools come from the first policy
of the document, and each of its rules from one entry of the list of that policy, under the position
that it has there.
-/

namespace TaintPolicy

/-- The entries that the first policy of a document lists as its rules. -/
def policyEntries (document : Json) : List Json := (firstPolicy? document).elim [] ruleEntries

/-- The tool gates of the first policy. -/
def policyGates? (document : Json) : Option Json :=
  (firstPolicy? document).bind fun policy => policy.firstPresent? ["static_rules", "staticRules"]

/-- The selection with the name of the first policy and with the tools that it gates. -/
def restoredFrame (catalog : Catalog) (document : Json) (gates : Fields Gate) : Selection :=
  gates.foldl (restoreTool catalog)
    { policyName := ((firstPolicy? document).bind fun policy => policy.firstText? ["name"]).getD "" }

/-- The parts of a selection that was restored, each with the reader it came from. -/
theorem restore_eq_ok {catalog : Catalog} {assigner : Assigner} {mode : Mode} {document : Json}
    {s : Selection} (h : restore catalog assigner mode document = .ok s) :
    ∃ gates rules, readGates mode (policyGates? document) = .ok gates ∧
      collect (restoreRule assigner mode) (numbered (policyEntries document)) = .ok rules ∧
      s = { restoredFrame catalog document gates with rules } := by
  simp only [restore] at h
  rw [policyGates?, policyEntries]
  simp only [restoredFrame]
  cases hp : firstPolicy? document with
  | none =>
    rw [hp] at h
    cases h
    exact ⟨[], [], rfl, rfl, rfl⟩
  | some policy =>
    rw [hp] at h
    obtain ⟨gates, hg, h⟩ := bind_eq_ok.mp h
    obtain ⟨rules, hr, h⟩ := bind_eq_ok.mp h
    cases h
    exact ⟨gates, rules, hg, hr, rfl⟩

end TaintPolicy
