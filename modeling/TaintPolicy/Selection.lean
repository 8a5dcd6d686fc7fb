import TaintPolicy.Relevance
import TaintPolicy.Template
import TaintPolicy.Tool.Catalog

/-!
# Selections

The tools and rules an operator has chosen so far. Tools are chosen by name and rules by id; an
operation that finds nothing to do says so and leaves the selection as it was.
-/

namespace TaintPolicy

/-- A chosen tool with its gate, which counts only where overrides are honored. -/
structure Selected where
  tool : Tool
  gate : Gate := .allow
deriving DecidableEq, Inhabited

namespace Selected

def name (s : Selected) : String := s.tool.name

def toJson (s : Selected) : Json :=
  .obj [("tool", s.tool.toJson), ("static_action", s.gate.toJson)]

def ofJson? (v : Json) : Option Selected := do
  let fs ← Json.record? ["tool", "static_action"] 1 v
  let tool ← Json.field? Tool.ofJson? "tool" fs
  let gate ← Json.defaulted? Gate.ofJson? .allow "static_action" fs
  some ⟨tool, gate⟩

end Selected

structure Selection where
  policyName : String := ""
  tools : List Selected := []
  rules : List NamedRule := []
  activeTemplate : Option String := none
deriving DecidableEq, Inhabited

namespace Selection

def toJson (s : Selection) : Json :=
  .obj [
    ("policy_name", .str s.policyName),
    ("tools", .arr (s.tools.map Selected.toJson)),
    ("rules", .arr (s.rules.map NamedRule.toJson)),
    ("active_template", Json.textOrNull s.activeTemplate)]

def ofJson? (v : Json) : Option Selection := do
  let fs ← Json.record? ["policy_name", "tools", "rules", "active_template"] 4 v
  let policyName ← Json.field? Json.text? "policy_name" fs
  let tools ← Json.field? (Json.list? Selected.ofJson?) "tools" fs
  let rules ← Json.field? (Json.list? NamedRule.ofJson?) "rules" fs
  let activeTemplate ← Json.optional? Json.text? "active_template" fs
  some { policyName, tools, rules, activeTemplate }

def hasTool (s : Selection) (name : String) : Bool := s.tools.any fun t => t.name = name

def hasRule (s : Selection) (id : String) : Bool := s.rules.any fun r => r.id = id

def toolNames (s : Selection) : List String := s.tools.map Selected.name

def ruleIds (s : Selection) : List String := s.rules.map (·.id)

/-- The names and the present classes of the chosen tools. -/
def focus (s : Selection) : Focus := ⟨s.toolNames, s.tools.map fun t => t.tool.taintClass⟩

def rename (s : Selection) (name : String) : Selection := { s with policyName := name }

/-- Chooses a tool unless one of its name is chosen already. -/
def addTool (s : Selection) (t : Tool) : Bool × Selection :=
  if s.hasTool t.name then (false, s) else (true, { s with tools := s.tools ++ [⟨t, .allow⟩] })

def addTools (s : Selection) (ts : List Tool) : Selection :=
  ts.foldl (fun s t => (s.addTool t).2) s

def removeTool (s : Selection) (name : String) : Bool × Selection :=
  (s.hasTool name, { s with tools := s.tools.filter fun t => t.name ≠ name })

/-- Adds the tool if it is not chosen and removes it otherwise; says whether it is chosen then. -/
def toggleTool (s : Selection) (t : Tool) : Bool × Selection :=
  if s.hasTool t.name then (false, (s.removeTool t.name).2) else s.addTool t

/-- Moves the tool `name` to the place where the tool `target` stands. -/
def reorderTool (s : Selection) (name target : String) : Bool × Selection :=
  match s.tools.findIdx? fun t => t.name = name, s.tools.findIdx? fun t => t.name = target with
  | some i, some j =>
    match s.tools[i]? with
    | some t => (true, { s with tools := (s.tools.eraseIdx i).insertIdx j t })
    | none => (false, s)
  | _, _ => (false, s)

/-- Changes the first tool of that name. -/
def changeFirst (name : String) (change : Selected → Selected) : List Selected → List Selected
  | [] => []
  | t :: ts => if t.name = name then change t :: ts else t :: changeFirst name change ts

def setGate (s : Selection) (name : String) (gate : Gate) : Bool × Selection :=
  (s.hasTool name, { s with tools := changeFirst name (fun t => { t with gate }) s.tools })

/-- Overrides the class of a chosen tool, in this selection only. -/
def reclassify (s : Selection) (name : String) (c : TaintClass) : Bool × Selection :=
  let change (t : Selected) : Selected := { t with tool := { t.tool with taintClass := c } }
  (s.hasTool name, { s with tools := changeFirst name change s.tools })

def clearTools (s : Selection) : Selection := { s with tools := [] }

/-- Chooses a rule unless one of its id is chosen already. -/
def addRule (s : Selection) (r : NamedRule) : Bool × Selection :=
  if s.hasRule r.id then (false, s) else (true, { s with rules := s.rules ++ [r] })

def removeRule (s : Selection) (id : String) : Bool × Selection :=
  (s.hasRule id, { s with rules := s.rules.filter fun r => r.id ≠ id })

/-- Adds the rule if its id is not chosen and removes that id otherwise; says whether it is chosen
then. -/
def toggleRule (s : Selection) (r : NamedRule) : Bool × Selection :=
  if s.hasRule r.id then (false, (s.removeRule r.id).2) else s.addRule r

/-- Appends a rule whatever its id: every rule of a policy that is read back has to survive. -/
def pushRule (s : Selection) (r : NamedRule) : Selection := { s with rules := s.rules ++ [r] }

/-- The least index from `index` on whose id is not taken, at most `bound` further. -/
def freshIndex (taken : List String) (idAt : Nat → String) : Nat → Nat → Nat
  | 0, index => index
  | bound + 1, index =>
    if idAt index ∈ taken then freshIndex taken idAt bound (index + 1) else index

/-- Adds a rule that was written by hand, under an id that no chosen rule has. After removals the
id at the current length may be taken. -/
def authorRule (s : Selection) (assigner : Assigner) (r : Rule) :
    Except Fault (NamedRule × Selection) :=
  match r.targetDefect? with
  | some defect => .error (.invalidTarget defect)
  | none =>
    let idAt := fun index => assigner.importedId index r
    let index := freshIndex s.ruleIds idAt s.rules.length s.rules.length
    let named : NamedRule := ⟨idAt index, authoredSource, r⟩
    .ok (named, s.pushRule named)

/-- Starts over from a template: its rules, and the tools it allows that the catalog holds. -/
def selectTemplate (s : Selection) (t : Template) (catalog : Catalog) : Selection :=
  { s.clearTools.addTools (t.allowedTools.filterMap catalog.get?) with
    rules := t.rules
    activeTemplate := some t.name }

/-- Drops the rules but keeps the tools. -/
def clearTemplate (s : Selection) : Selection := { s with rules := [], activeTemplate := none }

/-- Back to nothing but the policy name. -/
def reset (s : Selection) : Selection := { policyName := s.policyName }

/-- There is something to compile. -/
def canExport (s : Selection) : Bool :=
  s.activeTemplate.isSome || !s.tools.isEmpty || !s.rules.isEmpty

/-- The rules of the corpus worth showing beside the chosen tools. -/
def suggest (s : Selection) (corpus : List NamedRule) : List NamedRule := s.focus.filter corpus

end Selection

end TaintPolicy
