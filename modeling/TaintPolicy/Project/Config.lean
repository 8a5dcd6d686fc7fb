import TaintPolicy.Fault
import TaintPolicy.Project.Path
import TaintPolicy.Rule.Identity
import TaintPolicy.Toml.Reader

/-!
# Configuration

Where a project keeps its presets, and how strictly they are read. Every setting has a default, and
unknown settings are ignored.
-/

namespace TaintPolicy

structure Config where
  catalog : String := "presets/tool_registry.yaml"
  templates : String := "presets/rule_templates.yaml"
  classes : String := "presets/classes.yaml"
  /-- The policy name used when the command line gives none. -/
  policyName : String := ""
  strict : Bool := false
  identity : Identity := .fingerprint
  /-- Compiled gates keep the overrides of single tools. -/
  honor : Bool := false
deriving DecidableEq, Repr, Inhabited

namespace Identity

def toJson (i : Identity) : Json := .str i.text

def ofJson? : Json → Option Identity := Json.oneOf? ofText?

/-- A text, or a table with the word as the one key of an empty table. -/
def ofToml? : Toml.Value → Option Identity
  | .text s => ofText? s
  | .table [(k, .table [])] => ofText? k
  | _ => none

end Identity

namespace Config

def keys : List String :=
  ["catalog", "templates", "classes", "policy_name", "strict", "identity", "honor_static_overrides"]

def mode (c : Config) : Mode := if c.strict then .strict else .lenient

def toJson (c : Config) : Json :=
  .obj [
    ("catalog", .str c.catalog),
    ("templates", .str c.templates),
    ("classes", .str c.classes),
    ("policy_name", .str c.policyName),
    ("strict", .bool c.strict),
    ("identity", c.identity.toJson),
    ("honor_static_overrides", .bool c.honor)]

def ofJson? (v : Json) : Option Config := do
  let base : Config := {}
  let fs ← Json.record? keys 0 v
  let catalog ← Json.defaulted? Json.text? base.catalog "catalog" fs
  let templates ← Json.defaulted? Json.text? base.templates "templates" fs
  let classes ← Json.defaulted? Json.text? base.classes "classes" fs
  let policyName ← Json.defaulted? Json.text? base.policyName "policy_name" fs
  let strict ← Json.defaulted? Json.flag? base.strict "strict" fs
  let identity ← Json.defaulted? Identity.ofJson? base.identity "identity" fs
  let honor ← Json.defaulted? Json.flag? base.honor "honor_static_overrides" fs
  some { catalog, templates, classes, policyName, strict, identity, honor }

/-- A setting of a document, or its default. -/
def setting? {α : Type} (read : Toml.Value → Option α) (fallback : α) (name : String)
    (fs : Fields Toml.Value) : Option α :=
  match Fields.find? name fs with
  | none => some fallback
  | some v => read v

def ofToml? (text : String) : Option Config := do
  let base : Config := {}
  let fs ← Toml.read? text
  let catalog ← setting? Toml.Value.text? base.catalog "catalog" fs
  let templates ← setting? Toml.Value.text? base.templates "templates" fs
  let classes ← setting? Toml.Value.text? base.classes "classes" fs
  let policyName ← setting? Toml.Value.text? base.policyName "policy_name" fs
  let strict ← setting? Toml.Value.flag? base.strict "strict" fs
  let identity ← setting? Identity.ofToml? base.identity "identity" fs
  let honor ← setting? Toml.Value.flag? base.honor "honor_static_overrides" fs
  some { catalog, templates, classes, policyName, strict, identity, honor }

/-- The configuration with its preset paths as seen from the root of the project. -/
def resolved (root : String) (c : Config) : Config :=
  { c with
    catalog := Path.join root c.catalog
    templates := Path.join root c.templates
    classes := Path.join root c.classes }

/-- The standard layout of a project. -/
def ofProject (root : String) : Config := ({} : Config).resolved root

/-- The file that holds the configuration of a project. -/
def fileName : String := "sentinel.toml"

end Config

end TaintPolicy
