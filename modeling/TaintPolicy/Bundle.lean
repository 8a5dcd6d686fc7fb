import TaintPolicy.Policy
import TaintPolicy.Timestamp

/-!
# Export bundles

A policy file with summaries of the tools it was compiled for and the time of its export. The policy
file in a bundle is the compiled one, unchanged.
-/

namespace TaintPolicy

structure ToolSummary where
  name : String
  description : String
  inputSchema : InputSchema
  taintClass : TaintClass
deriving DecidableEq, Inhabited

namespace ToolSummary

def ofTool (t : Tool) : ToolSummary := ⟨t.name, t.description, t.inputSchema, t.taintClass⟩

def toJson (t : ToolSummary) : Json :=
  .obj [
    ("name", .str t.name),
    ("description", .str t.description),
    ("input_schema", t.inputSchema.toJson),
    ("taint_class", t.taintClass.toJson)]

def ofJson? (v : Json) : Option ToolSummary := do
  let fs ← Json.record? ["name", "description", "input_schema", "taint_class"] 4 v
  let name ← Json.field? Json.text? "name" fs
  let description ← Json.field? Json.text? "description" fs
  let inputSchema ← Json.field? InputSchema.ofJson? "input_schema" fs
  let taintClass ← Json.field? TaintClass.ofJson? "taint_class" fs
  some ⟨name, description, inputSchema, taintClass⟩

end ToolSummary

structure Bundle where
  tools : List ToolSummary
  file : PolicyFile
  exportedAt : Timestamp
  version : String
deriving DecidableEq, Inhabited

/-- The version that bundles are stamped with. -/
def bundleVersion : String := "1.0.0"

namespace Bundle

def toJson (b : Bundle) : Json :=
  .obj [
    ("tools", .arr (b.tools.map ToolSummary.toJson)),
    ("policy_file", b.file.toJson),
    ("exported_at", .str b.exportedAt.text),
    ("version", .str b.version)]

def ofJson? (v : Json) : Option Bundle := do
  let fs ← Json.record? ["tools", "policy_file", "exported_at", "version"] 4 v
  let tools ← Json.field? (Json.list? ToolSummary.ofJson?) "tools" fs
  let file ← Json.field? PolicyFile.ofJson? "policy_file" fs
  let exportedAt ← Json.field? (fun v => v.text?.bind Timestamp.read?) "exported_at" fs
  let version ← Json.field? Json.text? "version" fs
  some ⟨tools, file, exportedAt, version⟩

end Bundle

/-- Bundles the compiled file of a selection. -/
def Selection.bundle (s : Selection) (file : PolicyFile) (exportedAt : Timestamp) : Bundle where
  tools := s.tools.map fun t => .ofTool t.tool
  file := file
  exportedAt := exportedAt
  version := bundleVersion

end TaintPolicy
