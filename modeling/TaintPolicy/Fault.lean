/-!
# Faults

Everything that can be wrong with policy data, each with its message. A lenient reader drops the
faulty piece; a strict reader stops at the first fault.
-/

namespace TaintPolicy

/-- What is wrong with the body of a pattern. -/
inductive PatternDefect
  | stepsNotList | stepWithoutClass | badDistance
  | notMapping | conditionNotMapping | branchNotList | emptyPredicate
deriving DecidableEq, Repr

namespace PatternDefect

/-- The kind of pattern that can have the defect. -/
def kind : PatternDefect → String
  | stepsNotList | stepWithoutClass | badDistance => "sequence"
  | notMapping | conditionNotMapping | branchNotList | emptyPredicate => "logic"

def reason : PatternDefect → String
  | stepsNotList => "`steps` is missing or not a list"
  | stepWithoutClass => "step has no class"
  | badDistance => "max_distance is not a non-negative integer"
  | notMapping => "pattern is not a mapping"
  | conditionNotMapping => "`condition` is not a mapping"
  | branchNotList => "condition branch is not a list"
  | emptyPredicate => "predicate names no recognized class"

end PatternDefect

/-- Why a rule's direct target does not fit the rule. -/
inductive TargetDefect
  | both | neither | besidePattern
deriving DecidableEq, Repr

def TargetDefect.reason : TargetDefect → String
  | .both => "rule sets both tool and tool_class"
  | .neither => "rule sets neither tool nor tool_class"
  | .besidePattern => "pattern rule must not also target a tool or tool_class"

/-- Why a text is no glob. -/
inductive GlobDefect
  | tooManyStars | starsInsideName | badRange
deriving DecidableEq, Repr

def GlobDefect.reason : GlobDefect → String
  | .tooManyStars => "wildcards are either regular `*` or recursive `**`"
  | .starsInsideName => "recursive wildcards must form a single path component"
  | .badRange => "invalid range pattern"

inductive Fault
  | unknownPatternType (found : String)
  | malformedPattern (defect : PatternDefect)
  | missingAction
  | unknownAction (found : String)
  | unknownTaintClass (found : String)
  | unknownGate (tool found : String)
  | invalidTarget (defect : TargetDefect)
  | unreadableYaml
  | unreadableJson
  | ruleNotMapping
  | forbiddenTagsNotList
  | templateWithoutName
  | templatesMissing
  | templatesNotList
  | gatesNotMapping
  | badGlob (pattern : String) (position : Nat) (defect : GlobDefect)
  | inaccessible (path : String)
  | badConfig (path : String)
deriving DecidableEq, Repr

namespace Fault

def message : Fault → String
  | unknownPatternType found =>
    "unknown pattern type '" ++ found ++ "' (expected 'sequence' or 'logic')"
  | malformedPattern defect => "malformed " ++ defect.kind ++ " pattern: " ++ defect.reason
  | missingAction => "rule is missing an action"
  | unknownAction found => "unknown taint action '" ++ found ++ "'"
  | unknownTaintClass found => "unknown taint class '" ++ found ++ "'"
  | unknownGate tool found => "unknown static action '" ++ found ++ "' for tool '" ++ tool ++ "'"
  | invalidTarget defect => "invalid rule target: " ++ defect.reason
  | unreadableYaml => "failed to parse yaml"
  | unreadableJson => "failed to parse json"
  | ruleNotMapping => "failed to parse rule: expected a mapping"
  | forbiddenTagsNotList => "failed to parse rule: forbidden_tags is not a list"
  | templateWithoutName => "failed to parse rule template: template has no name"
  | templatesMissing => "failed to parse rule templates: missing `rule_templates`"
  | templatesNotList => "failed to parse rule templates: `rule_templates` is not a list"
  | gatesNotMapping =>
    "failed to parse static rules: expected a mapping of tool to ALLOW/DENY"
  | badGlob pattern position defect =>
    "failed to parse tool pattern: '" ++ pattern ++ "': Pattern syntax error near position " ++
      toString position ++ ": " ++ defect.reason
  | inaccessible path => "failed to access " ++ path
  | badConfig path => "invalid configuration at " ++ path

end Fault

/-- Whether a reader drops a faulty piece or stops at it. -/
inductive Mode
  | lenient | strict
deriving DecidableEq, Repr, Inhabited

namespace Mode

/-- Goes on with `a` in spite of a fault, unless the mode is strict. -/
def tolerate {α : Type} (mode : Mode) (fault : Fault) (a : α) : Except Fault α :=
  match mode with
  | lenient => .ok a
  | strict => .error fault

@[simp] theorem tolerate_lenient {α : Type} (fault : Fault) (a : α) :
    lenient.tolerate fault a = .ok a := rfl

@[simp] theorem tolerate_strict {α : Type} (fault : Fault) (a : α) :
    strict.tolerate fault a = .error fault := rfl

def text : Mode → String
  | lenient => "lenient"
  | strict => "strict"

def ofText? (s : String) : Option Mode :=
  [lenient, strict].find? fun m => m.text = s

end Mode

/-- The pieces that are kept, in order, up to the first fault. -/
def collect {α β : Type} (read : α → Except Fault (Option β)) : List α → Except Fault (List β)
  | [] => .ok []
  | a :: as =>
    match read a with
    | .error fault => .error fault
    | .ok piece =>
      match collect read as with
      | .error fault => .error fault
      | .ok pieces => .ok (piece.toList ++ pieces)

section collect

variable {α β : Type} {read : α → Except Fault (Option β)}

@[simp] theorem collect_nil : collect read [] = .ok [] := rfl

theorem collect_cons_ok {a : α} {as : List α} {piece : Option β} {pieces : List β}
    (h : read a = .ok piece) (hs : collect read as = .ok pieces) :
    collect read (a :: as) = .ok (piece.toList ++ pieces) := by
  simp [collect, h, hs]

theorem collect_eq_filterMap (f : α → Option β) (h : ∀ a, read a = .ok (f a)) (as : List α) :
    collect read as = .ok (as.filterMap f) := by
  induction as with
  | nil => rfl
  | cons a as ih =>
    cases hf : f a <;> simp [collect, h, ih, hf]

end collect

end TaintPolicy
