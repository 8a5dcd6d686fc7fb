import TaintPolicy.Fault
import TaintPolicy.Tool.Basic
import TaintPolicy.Yaml.Document

/-!
# Texts on classes

Reads the reference texts for the taint classes from a list of records. A text is what the scalar
spells, be it a number or `null`.
-/

namespace TaintPolicy.ClassGuide

open Yaml (Document Node Walk)

/-- A class by its name. The name may also stand as the tag of an empty node. -/
def readClass (d : Document) (n : Node) : Walk TaintClass := do
  match ← d.resolved n with
  | .scalar _ tag text plain =>
    let name ← match Yaml.localTag? tag with
      | none => pure text
      | some t => if plain && (text = "" || Yaml.spellsNull text.toList) then pure t else failure
    match TaintClass.ofText? name with
    | some c => return c
    | none => failure
  | _ => failure

def readText (d : Document) (fs : Fields Node) (name : String) : Walk String :=
  match Fields.find? name fs with
  | none => return ""
  | some n => d.text n

def readGuide (d : Document) (n : Node) : Walk ClassGuide := do
  let fs ← d.record keys n
  let taintClass ← match Fields.find? "className" fs with
    | some n => readClass d n
    | none => failure
  return {
    taintClass
    classificationRule := ← readText d fs "classificationRule"
    description := ← readText d fs "description"
    exampleName := ← readText d fs "exampleFunctionName"
    exampleDescription := ← readText d fs "exampleFunctionDescription"
    necessity := ← readText d fs "necessity" }

def listOfText (text : String) : Except Fault (List ClassGuide) :=
  let read : Option (List ClassGuide) := do
    let d ← Document.ofText? text
    let (guides, _) ← (do (← d.items d.root).mapM (readGuide d) : Walk (List ClassGuide)).run 0
    some guides
  match read with
  | some guides => .ok guides
  | none => .error .unreadableYaml

end TaintPolicy.ClassGuide
