import TaintPolicy.Command.Request
import TaintPolicy.Policy
import TaintPolicy.Project.Config

/-!
# Assembling a selection

Applies the choices of the command line in a fixed order: a template replaces what the selection
started from, then tools are added, tools denied and rules toggled, and last the name is set.
-/

namespace TaintPolicy.Command

/-- Why a command fails. -/
inductive Complaint
  | fault (fault : Fault)
  | unreadablePolicy (path : String)
  | unusablePolicy (path : String)
  | unknownTemplate (name : String)
  | noSuchTool (registry pattern : String)
  | notSelected (name : String)
  | unknownRule (id : String)
  | unwritable (path : String)
deriving DecidableEq, Repr

def Complaint.message : Complaint → String
  | fault f => f.message
  | unreadablePolicy path => "failed to read policy file " ++ path
  | unusablePolicy path => "failed to import " ++ path
  | unknownTemplate name =>
    "unknown template '" ++ name ++ "' (run `sentinel templates` to list them)"
  | noSuchTool registry pattern => "no tool in " ++ registry ++ " matches '" ++ pattern ++ "'"
  | notSelected name => "cannot deny '" ++ name ++ "': it is not selected"
  | unknownRule id => "unknown rule id '" ++ id ++ "'"
  | unwritable path => "failed to write " ++ path

/-- Starts over from the template of a name. -/
def adoptTemplate (catalog : Catalog) (templates : List Template) (s : Selection) :
    Option String → Except Complaint Selection
  | none => .ok s
  | some name =>
    match templates.find? fun t => t.name = name with
    | some t => .ok (s.selectTemplate t catalog)
    | none => .error (.unknownTemplate name)

/-- Adds the tools that a glob matches, of which there has to be one. -/
def addMatching (registry : String) (catalog : Catalog) (s : Selection) (pattern : String) :
    Except Complaint Selection :=
  match catalog.glob pattern with
  | .error f => .error (.fault f)
  | .ok [] => .error (.noSuchTool registry pattern)
  | .ok matched => .ok (s.addTools matched)

def denyTool (s : Selection) (name : String) : Except Complaint Selection :=
  match s.setGate name .deny with
  | (true, s) => .ok s
  | (false, _) => .error (.notSelected name)

def toggleById (corpus : List NamedRule) (s : Selection) (id : String) :
    Except Complaint Selection :=
  match Fields.find? id (indexById corpus) with
  | some r => .ok (s.toggleRule r).2
  | none => .error (.unknownRule id)

/-- The name that was asked for; else the name it has, unless that is blank; else the configured
name. -/
def nameSelection (configured : String) (requested : Option String) (s : Selection) : Selection :=
  match requested with
  | some name => s.rename name
  | none => if trim s.policyName = "" then s.rename configured else s

/-- The selection that the choices make of the one they start from. -/
def assemble (config : Config) (catalog : Catalog) (templates : List Template) (choices : Choices)
    (start : Selection) : Except Complaint Selection := do
  let s ← adoptTemplate catalog templates start choices.template
  let s ← choices.tools.foldlM (addMatching config.catalog catalog) s
  let s ← choices.denied.foldlM denyTool s
  let s ← choices.rules.foldlM (toggleById (corpusOf templates)) s
  .ok (nameSelection config.policyName choices.name s)

end TaintPolicy.Command
