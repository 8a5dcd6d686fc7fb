import TaintPolicy.Policy

/-!
# Restoring a selection

Reads a policy file back into a selection. Only the first policy counts. Its tools come from the
catalog, with the gates that the file gives them; its rules keep the ids they carry, also where
these collide.
-/

namespace TaintPolicy

def firstPolicy? (document : Json) : Option Json :=
  (listedEntries document ["policies"]).head?

def restoreTool (catalog : Catalog) (s : Selection) (g : String × Gate) : Selection :=
  match catalog.get? g.1 with
  | some t => ((s.addTool t).2.setGate g.1 g.2).2
  | none => s

def restoreRule (assigner : Assigner) (mode : Mode) (entry : Json × Nat) :
    Except Fault (Option NamedRule) :=
  (readRule mode entry.1).map fun read => read.map fun r =>
    assigner.name entry.2 r.rule r.id r.source

/-- Reads the selection that a document holds; without a policy it is empty. -/
def restore (catalog : Catalog) (assigner : Assigner) (mode : Mode) (document : Json) :
    Except Fault Selection :=
  match firstPolicy? document with
  | none => .ok {}
  | some policy => do
    let gates ← readGates mode (policy.firstPresent? ["static_rules", "staticRules"])
    let rules ← collect (restoreRule assigner mode)
      (numbered (listedEntries policy ["taint_rules", "taintRules"]))
    let named : Selection := { policyName := (policy.firstText? ["name"]).getD "" }
    .ok { gates.foldl (restoreTool catalog) named with rules }

def restoreText (catalog : Catalog) (assigner : Assigner) (mode : Mode) (text : String) :
    Except Fault Selection := do
  restore catalog assigner mode (← Yaml.read text)

end TaintPolicy
