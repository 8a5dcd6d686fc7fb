import TaintPolicy.KeyMap
import TaintPolicy.Taint
import TaintPolicy.Text.Case
import TaintPolicy.Text.Pieces

/-!
# Tools

What a catalog knows of a tool: its names, its classes, and the arguments it takes. The first class
is the one that rules see.
-/

namespace TaintPolicy

/-- An argument of a tool, with the word for its type. -/
structure Argument where
  kind : String
  description : String
deriving DecidableEq, Repr, Inhabited

namespace Argument

def toJson (a : Argument) : Json :=
  .obj [("type", .str a.kind), ("description", .str a.description)]

def ofJson? (v : Json) : Option Argument := do
  let fs ← Json.record? ["type", "description"] 2 v
  let kind ← Json.field? Json.text? "type" fs
  let description ← Json.field? Json.text? "description" fs
  some ⟨kind, description⟩

end Argument

namespace KeyMap

variable {α : Type}

def toJson (write : α → Json) (m : KeyMap α) : Json :=
  .obj (m.entries.map fun e => (e.1, write e.2))

def readEntries? (read : Json → Option α) : Fields Json → Option (List (String × α))
  | [] => some []
  | f :: fs => do
    let a ← read f.2
    let rest ← readEntries? read fs
    some ((f.1, a) :: rest)

/-- Reads an object; its fields may stand in any order. -/
def ofJson? (read : Json → Option α) : Json → Option (KeyMap α)
  | .obj fs => (readEntries? read fs).map ofList
  | _ => none

end KeyMap

/-- The arguments of a tool by name, and the names of those that are required, in the order of their
declaration. -/
structure InputSchema where
  kind : String := "object"
  properties : KeyMap Argument := .empty
  required : List String := []
deriving DecidableEq, Inhabited

namespace InputSchema

def toJson (s : InputSchema) : Json :=
  .obj [
    ("type", .str s.kind),
    ("properties", s.properties.toJson Argument.toJson),
    ("required", Json.ofTexts s.required)]

def ofJson? (v : Json) : Option InputSchema := do
  let fs ← Json.record? ["type", "properties", "required"] 3 v
  let kind ← Json.field? Json.text? "type" fs
  let properties ← Json.field? (KeyMap.ofJson? Argument.ofJson?) "properties" fs
  let required ← Json.field? (Json.list? Json.text?) "required" fs
  some ⟨kind, properties, required⟩

end InputSchema

structure Tool where
  name : String
  displayName : String
  taintClass : TaintClass
  classes : List TaintClass
  description : String
  inputSchema : InputSchema
  isCommon : Bool
deriving DecidableEq, Inhabited

/-- The words of a name with a capital each, as in `Read File` for `read_file`. -/
def displayName (name : String) : String :=
  " ".intercalate (((piecesAt '_' name.toList).filter fun w => !w.isEmpty).map fun w =>
    String.ofList (capitalize w))

namespace Tool

/-- Tools that are highlighted as common picks. -/
def commonNames : List String := ["web_search", "read_file", "send_email", "read_database"]

/-- A tool of one class, without arguments. -/
def ofClass (name : String) (c : TaintClass) (description : String) : Tool where
  name := name
  displayName := TaintPolicy.displayName name
  taintClass := c
  classes := [c]
  description := description
  inputSchema := {}
  isCommon := commonNames.contains name

def keys : List String :=
  ["name", "display_name", "taint_class", "classes", "description", "input_schema", "is_common"]

def toJson (t : Tool) : Json :=
  .obj [
    ("name", .str t.name),
    ("display_name", .str t.displayName),
    ("taint_class", t.taintClass.toJson),
    ("classes", .arr (t.classes.map TaintClass.toJson)),
    ("description", .str t.description),
    ("input_schema", t.inputSchema.toJson),
    ("is_common", .bool t.isCommon)]

def ofJson? (v : Json) : Option Tool := do
  let fs ← Json.record? keys 7 v
  let name ← Json.field? Json.text? "name" fs
  let displayName ← Json.field? Json.text? "display_name" fs
  let taintClass ← Json.field? TaintClass.ofJson? "taint_class" fs
  let classes ← Json.field? (Json.list? TaintClass.ofJson?) "classes" fs
  let description ← Json.field? Json.text? "description" fs
  let inputSchema ← Json.field? InputSchema.ofJson? "input_schema" fs
  let isCommon ← Json.field? Json.flag? "is_common" fs
  some ⟨name, displayName, taintClass, classes, description, inputSchema, isCommon⟩

end Tool

/-- Reference texts for one taint class. -/
structure ClassGuide where
  taintClass : TaintClass
  classificationRule : String := ""
  description : String := ""
  exampleName : String := ""
  exampleDescription : String := ""
  necessity : String := ""
deriving DecidableEq, Repr, Inhabited

namespace ClassGuide

def keys : List String :=
  ["className", "classificationRule", "description", "exampleFunctionName",
    "exampleFunctionDescription", "necessity"]

def toJson (g : ClassGuide) : Json :=
  .obj [
    ("className", g.taintClass.toJson),
    ("classificationRule", .str g.classificationRule),
    ("description", .str g.description),
    ("exampleFunctionName", .str g.exampleName),
    ("exampleFunctionDescription", .str g.exampleDescription),
    ("necessity", .str g.necessity)]

def ofJson? (v : Json) : Option ClassGuide := do
  let fs ← Json.record? keys 1 v
  let taintClass ← Json.field? TaintClass.ofJson? "className" fs
  let classificationRule ← Json.defaulted? Json.text? "" "classificationRule" fs
  let description ← Json.defaulted? Json.text? "" "description" fs
  let exampleName ← Json.defaulted? Json.text? "" "exampleFunctionName" fs
  let exampleDescription ← Json.defaulted? Json.text? "" "exampleFunctionDescription" fs
  let necessity ← Json.defaulted? Json.text? "" "necessity" fs
  some { taintClass, classificationRule, description, exampleName, exampleDescription, necessity }

end ClassGuide

end TaintPolicy
