import TaintPolicy.Command.Arguments

/-!
# Requests

What the command line asks for: one of six tasks in a project. `Request.read` gives none where the
arguments offend against the usage.
-/

namespace TaintPolicy.Command

/-- What to put into a selection. -/
structure Choices where
  /-- A policy file to start from. -/
  start : Option String := none
  template : Option String := none
  /-- Globs for tools. -/
  tools : List String := []
  /-- Names of tools to deny. -/
  denied : List String := []
  /-- Ids of rules to toggle. -/
  rules : List String := []
  name : Option String := none
deriving DecidableEq, Repr, Inhabited

inductive Layout
  | yaml | json
deriving DecidableEq, Repr, Inhabited

/-- In what form a compiled policy is written, and to which file. -/
structure Delivery where
  layout : Layout := .yaml
  bundle : Bool := false
  target : Option String := none
deriving DecidableEq, Repr, Inhabited

inductive Task
  | tools (search : Option String)
  | classes
  | templates
  | relevant (choices : Choices)
  | compile (choices : Choices) (delivery : Delivery)
  | restore (path : String)
deriving DecidableEq, Repr

inductive Request
  | help
  | version
  | perform (root : String) (strict : Bool) (task : Task)
deriving DecidableEq, Repr

def mainShape : Shape where
  switches := [
    { name := "project-root", takes := .path },
    { name := "strict", takes := .nothing }]
  hasVersion := true
  operands := 1
  leads := true

def choiceSwitches : List Switch := [
  { name := "from", takes := .path },
  { name := "template" },
  { name := "tool", repeats := true },
  { name := "deny", repeats := true },
  { name := "rule", repeats := true },
  { name := "name" }]

def deliverySwitches : List Switch := [
  { name := "format", takes := .oneOf ["yaml", "json"] },
  { name := "bundle", takes := .nothing },
  { name := "output", letter := some 'o', takes := .path }]

def Choices.ofArguments (a : Arguments) : Choices where
  start := a.value? "from"
  template := a.value? "template"
  tools := a.values "tool"
  denied := a.values "deny"
  rules := a.values "rule"
  name := a.value? "name"

def Delivery.ofArguments (a : Arguments) : Delivery where
  layout := if a.value? "format" = some "json" then .json else .yaml
  bundle := a.has "bundle"
  target := a.value? "output"

/-- The options of a command, by its name. -/
def shapeOf? (command : String) : Option Shape :=
  match command with
  | "tools" => some { switches := [{ name := "search" }] }
  | "classes" => some { switches := [] }
  | "templates" => some { switches := [] }
  | "relevant" => some { switches := choiceSwitches }
  | "compile" => some { switches := choiceSwitches ++ deliverySwitches }
  | "import" => some { switches := [], operands := 1 }
  | _ => none

def taskOf? (command : String) (a : Arguments) : Option Task :=
  match command with
  | "tools" => some (.tools (a.value? "search"))
  | "classes" => some .classes
  | "templates" => some .templates
  | "relevant" => some (.relevant (.ofArguments a))
  | "compile" => some (.compile (.ofArguments a) (.ofArguments a))
  | "import" => a.operands.head?.map .restore
  | _ => none

/-- Help on the program, or on a command that it has. -/
def isHelp (words : List String) : Bool :=
  match words with
  | [] => true
  | [command] => (shapeOf? command).isSome || command = "help"
  | _ => false

namespace Request

def ofStop : Stop → Option Request
  | .usage => none
  | .help => some help
  | .version => some version

/-- The request for a command with the words after its name. -/
def readTask (main : Arguments) (command : String) (words : List String) : Option Request :=
  match shapeOf? command with
  | none => if command = "help" ∧ isHelp words then some help else none
  | some shape =>
    match Arguments.read shape words with
    | .error stop => ofStop stop
    | .ok (a, _) =>
      (taskOf? command a).map
        (perform ((main.value? "project-root").getD ".") (main.has "strict"))

def read (words : List String) : Option Request :=
  match Arguments.read mainShape words with
  | .error stop => ofStop stop
  | .ok (a, rest) =>
    match a.operands with
    | [command] => readTask a command rest
    | _ => none

end Request

end TaintPolicy.Command
