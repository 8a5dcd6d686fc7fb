import TaintPolicy.Tool.Catalog
import TaintPolicy.Yaml.Value

/-!
# Tool registries

Reads a catalog from a text that maps the names of tools to their classes and arguments. A tool none
of whose classes is known is left out, and so are tools and arguments whose names are no texts.
-/

namespace TaintPolicy

open Yaml (Value Document)

namespace Registry

/-- An argument, and whether it is required. -/
def readArgument (v : Value) : Option (Argument × Bool) := do
  let fs ← v.record? ["type", "description", "required"]
  let kind ← Value.defaulted? Value.text? "" "type" fs
  let description ← Value.defaulted? Value.text? "" "description" fs
  let required ← Value.defaulted? Value.flag? false "required" fs
  some (⟨kind, description⟩, required)

/-- Adds an argument to those before it. -/
def addArgument (s : InputSchema) (e : Value × Value) : Option InputSchema :=
  match e.1.text? with
  | none => some s
  | some name => do
    let (a, required) ← readArgument e.2
    some { s with
      properties := s.properties.insert name a
      required := if required then s.required ++ [name] else s.required }

def knownClasses (names : List String) : List TaintClass := names.filterMap TaintClass.ofText?

/-- A tool of that name, unless none of its classes is known. -/
def readTool (name : String) (v : Value) : Option (Option Tool) := do
  let fs ← v.record? ["description", "classes", "args"]
  let description ← Value.defaulted? Value.text? "" "description" fs
  let names ← Value.defaulted? (fun v => v.items?.bind (·.mapM Value.text?)) [] "classes" fs
  let arguments ← Value.defaulted? Value.entries? [] "args" fs
  match knownClasses names with
  | [] => some none
  | c :: cs => do
    let inputSchema ← arguments.foldlM addArgument {}
    some (some { Tool.ofClass name c description with classes := c :: cs, inputSchema })

def addTool (tools : List Tool) (e : Value × Value) : Option (List Tool) :=
  match e.1.text? with
  | none => some tools
  | some name => (readTool name e.2).map fun t => tools ++ t.toList

/-- The entries under the key of the registry. -/
def entries (d : Document) : Yaml.Walk (List (Value × Value)) := do
  match Fields.find? "tools" (← d.record ["tools"] d.root) with
  | none => return []
  | some n => (← d.entries n).foldlM (Document.addEntry (d.value (Yaml.maxDepth - 2))) []

end Registry

/-- Reads a catalog; no entry means no tool. -/
def Catalog.ofText (text : String) : Except Fault Catalog :=
  let read : Option Catalog := do
    let d ← Document.ofText? text
    let (es, _) ← (Registry.entries d).run 0
    let tools ← es.foldlM Registry.addTool []
    some ⟨tools⟩
  match read with
  | some c => .ok c
  | none => .error .unreadableYaml

end TaintPolicy
