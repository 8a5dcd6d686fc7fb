import TaintPolicy.Taint

/-!
# Call patterns

A sequence of taint classes that has to appear in a session, or a logic condition on the classes
that the session has seen and on the class of the current tool. An absent branch of a condition
differs from an empty one.

The JSON form has two spellings of its keys: camel case where a rule is saved, snake case in a
compiled policy.
-/

namespace TaintPolicy

inductive Spelling
  | camel | snake
deriving DecidableEq, Repr

namespace Spelling

def sessionKey : Spelling → String
  | camel => "sessionHasClass"
  | snake => "session_has_class"

def currentKey : Spelling → String
  | camel => "currentToolClass"
  | snake => "current_tool_class"

def distanceKey : Spelling → String
  | camel => "maxDistance"
  | snake => "max_distance"

def classKey : Spelling → String
  | camel => "toolClass"
  | snake => "tool_class"

def tagsKey : Spelling → String
  | camel => "forbiddenTags"
  | snake => "forbidden_tags"

end Spelling

/-- Classes that the session has to have seen, and that the current tool has to have. -/
structure Predicate where
  session : Option TaintClass
  current : Option TaintClass
deriving DecidableEq, Repr, Inhabited

namespace Predicate

def isEmpty (p : Predicate) : Bool := p.session.isNone && p.current.isNone

/-- The classes that are mentioned, that of the session first. -/
def classes (p : Predicate) : List TaintClass := p.session.toList ++ p.current.toList

def toJson (spelling : Spelling) (p : Predicate) : Json :=
  .obj (Json.fieldWhen spelling.sessionKey (p.session.map TaintClass.toJson) ++
    Json.fieldWhen spelling.currentKey (p.current.map TaintClass.toJson))

def ofJson? (spelling : Spelling) (v : Json) : Option Predicate := do
  let fs ← Json.record? [spelling.sessionKey, spelling.currentKey] 0 v
  let session ← Json.optional? TaintClass.ofJson? spelling.sessionKey fs
  let current ← Json.optional? TaintClass.ofJson? spelling.currentKey fs
  some ⟨session, current⟩

end Predicate

/-- Classes that follow each other, each at most `maxDistance` calls after the one before. -/
structure SequencePattern where
  steps : List TaintClass
  maxDistance : Option UInt64
deriving DecidableEq, Repr, Inhabited

def stepToJson (c : TaintClass) : Json := .obj [("class", c.toJson)]

def stepOfJson? (v : Json) : Option TaintClass := do
  let fs ← Json.record? ["class"] 1 v
  Json.field? TaintClass.ofJson? "class" fs

namespace SequencePattern

def toFields (spelling : Spelling) (p : SequencePattern) : Fields Json :=
  ("steps", .arr (p.steps.map stepToJson)) ::
    Json.fieldWhen spelling.distanceKey (p.maxDistance.map Json.ofWord)

def ofJson? (spelling : Spelling) (v : Json) : Option SequencePattern := do
  let fs ← Json.record? ["steps", spelling.distanceKey] 1 v
  let steps ← Json.field? (Json.list? stepOfJson?) "steps" fs
  let maxDistance ← Json.optional? Json.word? spelling.distanceKey fs
  some ⟨steps, maxDistance⟩

end SequencePattern

/-- A condition in two branches: predicates that all hold, and predicates of which one holds. -/
structure LogicPattern where
  and : Option (List Predicate)
  or : Option (List Predicate)
deriving DecidableEq, Repr, Inhabited

namespace LogicPattern

/-- The predicates of both branches, those that all hold first. -/
def predicates (p : LogicPattern) : List Predicate :=
  p.and.getD [] ++ p.or.getD []

def branchToJson (ps : List Predicate) : Json :=
  .arr (ps.map (Predicate.toJson .camel))

def toFields (p : LogicPattern) : Fields Json :=
  [("condition", .obj (Json.fieldWhen "AND" (p.and.map branchToJson) ++
    Json.fieldWhen "OR" (p.or.map branchToJson)))]

def conditionOfJson? (v : Json) : Option LogicPattern := do
  let fs ← Json.record? ["AND", "OR"] 0 v
  let and ← Json.optional? (Json.list? (Predicate.ofJson? .camel)) "AND" fs
  let or ← Json.optional? (Json.list? (Predicate.ofJson? .camel)) "OR" fs
  some ⟨and, or⟩

def ofJson? (v : Json) : Option LogicPattern := do
  let fs ← Json.record? ["condition"] 1 v
  Json.field? conditionOfJson? "condition" fs

end LogicPattern

inductive Pattern
  | sequence (pattern : SequencePattern)
  | logic (pattern : LogicPattern)
deriving DecidableEq, Repr, Inhabited

/-- The word under the key `type`, and the value that holds the other fields. -/
def taggedJson? : Json → Option (String × Json)
  | .obj fs => ((Fields.find? "type" fs).bind Json.text?).map fun tag => (tag, .obj fs)
  | .arr (.str tag :: vs) => some (tag, .arr vs)
  | _ => none

namespace Pattern

/-- The classes that the pattern mentions. -/
def classes : Pattern → List TaintClass
  | sequence p => p.steps
  | logic p => p.predicates.flatMap Predicate.classes

def toJson : Pattern → Json
  | sequence p => .obj (("type", .str "sequence") :: p.toFields .camel)
  | logic p => .obj (("type", .str "logic") :: p.toFields)

def ofJson? (v : Json) : Option Pattern :=
  match taggedJson? v with
  | some ("sequence", body) => (SequencePattern.ofJson? .camel body).map sequence
  | some ("logic", body) => (LogicPattern.ofJson? body).map logic
  | _ => none

end Pattern

end TaintPolicy
