import TaintPolicy.Rule.Basic

/-!
# Compiled entries

The form in which a policy lists its taint rules. An entry holds only what is set: no empty text, no
empty list, no predicate without a class.
-/

namespace TaintPolicy

/-- A pattern as a policy states it, without empty branches. -/
inductive EntryPattern
  | sequence (pattern : SequencePattern)
  | logic (and or : List Predicate)
deriving DecidableEq, Repr, Inhabited

namespace EntryPattern

def toJson : EntryPattern → Json
  | sequence p => .obj (("type", .str "sequence") :: p.toFields .snake)
  | logic and or =>
    .obj [("type", .str "logic"), ("condition",
      .obj (Json.fieldUnlessEmpty "AND" (and.map (Predicate.toJson .snake)) ++
        Json.fieldUnlessEmpty "OR" (or.map (Predicate.toJson .snake))))]

def conditionOfJson? (v : Json) : Option EntryPattern := do
  let fs ← Json.record? ["AND", "OR"] 0 v
  let and ← Json.defaulted? (Json.list? (Predicate.ofJson? .snake)) [] "AND" fs
  let or ← Json.defaulted? (Json.list? (Predicate.ofJson? .snake)) [] "OR" fs
  some (logic and or)

def ofJson? (v : Json) : Option EntryPattern :=
  match taggedJson? v with
  | some ("sequence", body) => (SequencePattern.ofJson? .snake body).map sequence
  | some ("logic", body) =>
    (Json.record? ["condition"] 1 body).bind (Json.field? conditionOfJson? "condition")
  | _ => none

end EntryPattern

/-- The branch without the predicates that name no class; an absent branch is empty. -/
def entryBranch (branch : Option (List Predicate)) : List Predicate :=
  (branch.getD []).filter fun p => !p.isEmpty

/-- The pattern as a policy states it. -/
def Pattern.toEntry : Pattern → EntryPattern
  | .sequence p => .sequence p
  | .logic p => .logic (entryBranch p.and) (entryBranch p.or)

structure Entry where
  action : TaintAction
  tool : Option String := none
  toolClass : Option TaintClass := none
  tag : Option String := none
  forbiddenTags : List String := []
  error : Option String := none
  pattern : Option EntryPattern := none
deriving DecidableEq, Repr, Inhabited

/-- A text that is there and not empty. -/
def nonEmpty (s : Option String) : Option String := s.filter (· ≠ "")

@[simp] theorem nonEmpty_none : nonEmpty none = none := rfl

@[simp] theorem nonEmpty_empty : nonEmpty (some "") = none := rfl

theorem nonEmpty_of_ne {s : String} (h : s ≠ "") : nonEmpty (some s) = some s := by
  simp [nonEmpty, Option.filter, h]

@[simp] theorem nonEmpty_nonEmpty (s : Option String) : nonEmpty (nonEmpty s) = nonEmpty s := by
  cases s with
  | none => rfl
  | some s => by_cases h : s = "" <;> simp [nonEmpty, Option.filter, h]

/-- The compiled entry of a rule. -/
def Rule.toEntry (r : Rule) : Entry where
  action := r.action
  tool := nonEmpty r.tool
  toolClass := r.toolClass
  tag := nonEmpty r.tag
  forbiddenTags := r.forbiddenTags
  error := nonEmpty r.error
  pattern := r.pattern.map Pattern.toEntry

namespace Entry

def keys : List String :=
  ["action", "tool", "tool_class", "tag", "forbidden_tags", "error", "pattern"]

def toFields (e : Entry) : Fields Json :=
  ("action", e.action.toJson) ::
    (Json.fieldWhen "tool" (e.tool.map .str) ++
      (Json.fieldWhen "tool_class" (e.toolClass.map TaintClass.toJson) ++
      (Json.fieldWhen "tag" (e.tag.map .str) ++
      (Json.fieldUnlessEmpty "forbidden_tags" (e.forbiddenTags.map .str) ++
      (Json.fieldWhen "error" (e.error.map .str) ++
      Json.fieldWhen "pattern" (e.pattern.map EntryPattern.toJson))))))

def toJson (e : Entry) : Json := .obj e.toFields

def ofJson? (v : Json) : Option Entry := do
  let fs ← Json.record? keys 1 v
  let action ← Json.field? TaintAction.ofJson? "action" fs
  let tool ← Json.optional? Json.text? "tool" fs
  let toolClass ← Json.optional? TaintClass.ofJson? "tool_class" fs
  let tag ← Json.optional? Json.text? "tag" fs
  let forbiddenTags ← Json.defaulted? (Json.list? Json.text?) [] "forbidden_tags" fs
  let error ← Json.optional? Json.text? "error" fs
  let pattern ← Json.optional? EntryPattern.ofJson? "pattern" fs
  some { action, tool, toolClass, tag, forbiddenTags, error, pattern }

end Entry

end TaintPolicy
