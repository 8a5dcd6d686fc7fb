import TaintPolicy.Bundle
import TaintPolicy.Command.Assembly
import TaintPolicy.Command.Listing
import TaintPolicy.Project.Host
import TaintPolicy.Restore
import TaintPolicy.Yaml.Printer

/-!
# Running a command

Loads the presets of the project, performs one task and says how it ended. A complaint is the only
text of a task that fails.
-/

namespace TaintPolicy.Command

structure Outcome where
  exit : Nat := 0
  output : String := ""
  complaint : Option Complaint := none

def programName : String := "sentinel"

def version : String := "0.3.0"

def helpText : String :=
  unlines [
    "Sentinel policy builder: assemble and compile tool-use security policies.",
    "",
    "Usage: sentinel [--project-root <PATH>] [--strict] <COMMAND>",
    "",
    "Commands: tools, classes, templates, relevant, compile, import, help"]

def layOut (layout : Layout) (v : Json) : String :=
  match layout with
  | .yaml => Yaml.print v
  | .json => v.pretty

/-- The selection of a policy file. -/
def restoreFile (catalog : Catalog) (assigner : Assigner) (mode : Mode) (path : String) :
    Option String → Except Complaint Selection
  | none => .error (.unreadablePolicy path)
  | some text =>
    match restoreText catalog assigner mode text with
    | .ok s => .ok s
    | .error _ => .error (.unusablePolicy path)

/-- What a compiled policy is written as. -/
def compiledText (config : Config) (delivery : Delivery) (now : Timestamp) (s : Selection) :
    String :=
  let file := s.compile config.honor
  layOut delivery.layout (if delivery.bundle then (s.bundle file now).toJson else file.toJson)

variable {m : Type → Type} [Monad m]

/-- The selection that choices make, with the corpus of the project. -/
def buildSelection (host : Host m) (config : Config) (choices : Choices) :
    m (Except Complaint (List NamedRule × Selection)) := do
  let catalog ← host.loadCatalog config.catalog
  let templates ← host.loadTemplates config.mode config.templates
  let start ← match choices.start with
    | none => pure (.ok {})
    | some path => do
      let assigner := config.identity.assigner (← host.seed)
      let text ← host.read path
      pure (restoreFile catalog assigner config.mode path text)
  return do
    let s ← assemble config catalog templates choices (← start)
    .ok (corpusOf templates, s)

def perform (host : Host m) (config : Config) : Task → m (Except Complaint String)
  | .tools search => do
    let catalog ← host.loadCatalog config.catalog
    return .ok (toolListing config.catalog (catalog.search (search.getD "")))
  | .classes => do
    return .ok (guideListing config.classes (← host.loadGuides config.classes))
  | .templates => do
    return .ok (templateListing config.templates
      (← host.loadTemplates config.mode config.templates))
  | .relevant choices => do
    return (← buildSelection host config choices).map fun (corpus, s) =>
      relevantListing s (s.suggest corpus)
  | .compile choices delivery => do
    match ← buildSelection host config choices with
    | .error c => return .error c
    | .ok (_, s) =>
      let text := compiledText config delivery (← host.now) s
      match delivery.target with
      | none => return .ok text
      | some path =>
        if ← host.write path text then return .ok "" else return .error (.unwritable path)
  | .restore path => do
    let assigner := config.identity.assigner (← host.seed)
    let text ← host.read path
    let catalog ← host.loadCatalog config.catalog
    return (restoreFile catalog assigner config.mode path text).map selectionListing

/-- Performs what the words ask for. Words that offend against the usage end with 2, a complaint
with 1. -/
def run (host : Host m) (words : List String) : m Outcome := do
  match Request.read words with
  | none => return { exit := 2 }
  | some .help => return { output := helpText }
  | some .version => return { output := unlines [programName ++ " " ++ version] }
  | some (.perform root strict task) =>
    let root := (← host.absolute root).getD root
    match ← host.loadConfig root with
    | .error f => return { exit := 1, complaint := some (.fault f) }
    | .ok config =>
      match ← perform host { config with strict := config.strict || strict } task with
      | .error c => return { exit := 1, complaint := some c }
      | .ok output => return { output }

end TaintPolicy.Command
