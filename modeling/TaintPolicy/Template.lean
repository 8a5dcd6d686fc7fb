import TaintPolicy.Rule.Identity
import TaintPolicy.Rule.Reading
import TaintPolicy.Yaml.Document

/-!
# Rule templates

A template is a named bundle of rules and tool gates. The position of a rule, which is part of its
id, is counted before any rule is dropped: a bad rule does not shift the ids of those after it.
-/

namespace TaintPolicy

structure Template where
  name : String
  description : String
  /-- The gates in file order. -/
  gates : Fields Gate
  rules : List NamedRule
deriving DecidableEq, Repr, Inhabited

namespace Template

/-- The tools that the template allows, in file order. -/
def allowedTools (t : Template) : List String :=
  (t.gates.filter fun g => g.2 = .allow).map (·.1)

def gate? (t : Template) (tool : String) : Option Gate := t.gates.find? tool

def gateToJson (g : String × Gate) : Json := .arr [.str g.1, g.2.toJson]

def gateOfJson? : Json → Option (String × Gate)
  | .arr [.str tool, v] => (Gate.ofJson? v).map fun g => (tool, g)
  | _ => none

def keys : List String := ["name", "description", "staticRules", "taintRules"]

def toJson (t : Template) : Json :=
  .obj [
    ("name", .str t.name),
    ("description", .str t.description),
    ("staticRules", .arr (t.gates.map gateToJson)),
    ("taintRules", .arr (t.rules.map NamedRule.toJson))]

def ofJson? (v : Json) : Option Template := do
  let fs ← Json.record? keys 4 v
  let name ← Json.field? Json.text? "name" fs
  let description ← Json.field? Json.text? "description" fs
  let gates ← Json.defaulted? (Json.list? gateOfJson?) [] "staticRules" fs
  let rules ← Json.field? (Json.list? NamedRule.ofJson?) "taintRules" fs
  some ⟨name, description, gates, rules⟩

end Template

/-- The rules of all templates, in template order and then in rule order. -/
def corpusOf (templates : List Template) : List NamedRule :=
  templates.flatMap (·.rules)

def readGate (mode : Mode) (f : String × Json) : Except Fault (Option (String × Gate)) :=
  let s := f.2.text?.getD ""
  match Gate.ofText? s with
  | some g => .ok (some (f.1, g))
  | none => mode.tolerate (.unknownGate f.1 s) none

/-- Gates in the order of the mapping that lists them. -/
def readGates (mode : Mode) : Option Json → Except Fault (Fields Gate)
  | none => .ok []
  | some v =>
    match v.fields? with
    | some fs => collect (readGate mode) fs
    | none => mode.tolerate .gatesNotMapping []

/-- The entries under the first key that holds something; none if that is no list. -/
def listedEntries (v : Json) (names : List String) : List Json :=
  ((v.firstPresent? names).bind Json.items?).getD []

/-- The values, each with its position. -/
def numbered (vs : List Json) : List (Json × Nat) := vs.zipIdx

def readTemplateRule (mode : Mode) (template : String) (entry : Json × Nat) :
    Except Fault (Option NamedRule) :=
  (readRule mode entry.1).map fun read => read.map fun r => nameInTemplate template entry.2 r.rule

def readTemplate (mode : Mode) (v : Json) : Except Fault (Option Template) :=
  match v.firstText? ["name"] with
  | none => mode.tolerate .templateWithoutName none
  | some name => do
    let gates ← readGates mode (v.firstPresent? ["static_rules", "staticRules"])
    let rules ← collect (readTemplateRule mode name)
      (numbered (listedEntries v ["taint_rules", "taintRules"]))
    .ok (some {
      name, gates, rules
      description := (v.firstText? ["description"]).getD "" })

/-- Reads the templates of a document. -/
def readTemplates (mode : Mode) (document : Json) : Except Fault (List Template) :=
  match document.firstPresent? ["rule_templates"] with
  | none => mode.tolerate .templatesMissing []
  | some v =>
    match v.items? with
    | some entries => collect (readTemplate mode) entries
    | none => .error .templatesNotList

def Template.listOfText (mode : Mode) (text : String) : Except Fault (List Template) := do
  readTemplates mode (← Yaml.read text)

end TaintPolicy
