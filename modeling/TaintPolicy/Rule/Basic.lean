import TaintPolicy.Fault
import TaintPolicy.Pattern

/-!
# Taint rules

A rule names a tool or a class of tools, or reacts to a pattern. Rules that are read may name both
or neither, so the target is a check on a rule and not a part of its type.
-/

namespace TaintPolicy

structure Rule where
  action : TaintAction
  tool : Option String := none
  toolClass : Option TaintClass := none
  tag : Option String := none
  forbiddenTags : List String := []
  error : Option String := none
  pattern : Option Pattern := none
deriving DecidableEq, Repr, Inhabited

namespace Rule

def forTool (action : TaintAction) (tool : String) : Rule := { action, tool := some tool }

def forClass (action : TaintAction) (c : TaintClass) : Rule := { action, toolClass := some c }

def forPattern (action : TaintAction) (p : Pattern) : Rule := { action, pattern := some p }

/-- Names a tool by a text that is not empty. -/
def hasTool (r : Rule) : Bool := r.tool.any (· ≠ "")

/-- What is wrong with the direct target, if anything: a rule without a pattern names exactly one of
a tool and a class, a rule with a pattern names neither. -/
def targetDefect? (r : Rule) : Option TargetDefect :=
  match r.pattern.isSome, r.hasTool, r.toolClass.isSome with
  | false, true, false => none
  | false, false, true => none
  | false, true, true => some .both
  | false, false, false => some .neither
  | true, false, false => none
  | true, _, _ => some .besidePattern

/-- The keys of the saved form, in order. -/
def keys : List String :=
  ["action", "tool", "toolClass", "tag", "forbiddenTags", "error", "pattern"]

def toFields (r : Rule) : Fields Json :=
  ("action", r.action.toJson) ::
    (Json.fieldWhen "tool" (r.tool.map .str) ++
      (Json.fieldWhen "toolClass" (r.toolClass.map TaintClass.toJson) ++
      (Json.fieldWhen "tag" (r.tag.map .str) ++
      (Json.fieldUnlessEmpty "forbiddenTags" (r.forbiddenTags.map .str) ++
      (Json.fieldWhen "error" (r.error.map .str) ++
      Json.fieldWhen "pattern" (r.pattern.map Pattern.toJson))))))

def toJson (r : Rule) : Json := .obj r.toFields

def ofFields? (fs : Fields Json) : Option Rule := do
  let action ← Json.field? TaintAction.ofJson? "action" fs
  let tool ← Json.optional? Json.text? "tool" fs
  let toolClass ← Json.optional? TaintClass.ofJson? "toolClass" fs
  let tag ← Json.optional? Json.text? "tag" fs
  let forbiddenTags ← Json.defaulted? (Json.list? Json.text?) [] "forbiddenTags" fs
  let error ← Json.optional? Json.text? "error" fs
  let pattern ← Json.optional? Pattern.ofJson? "pattern" fs
  some { action, tool, toolClass, tag, forbiddenTags, error, pattern }

def ofJson? (v : Json) : Option Rule :=
  (Json.record? keys 1 v).bind ofFields?

end Rule

/-- A rule under its id, with the name of the template or the word for the place it came from. -/
structure NamedRule where
  id : String
  source : String
  rule : Rule
deriving DecidableEq, Repr, Inhabited

namespace NamedRule

def toJson (r : NamedRule) : Json :=
  .obj (("id", .str r.id) :: ("sourceTemplate", .str r.source) :: r.rule.toFields)

/-- The fields of the rule stand among those of the entry, which is therefore always an object. -/
def ofJson? : Json → Option NamedRule
  | .obj fs => do
    let id ← Json.field? Json.text? "id" fs
    let source ← Json.field? Json.text? "sourceTemplate" fs
    let rule ← Rule.ofFields? fs
    some ⟨id, source, rule⟩
  | _ => none

end NamedRule

end TaintPolicy
