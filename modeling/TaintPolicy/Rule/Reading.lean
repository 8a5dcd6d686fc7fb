import TaintPolicy.Rule.Entry

/-!
# Reading rules

Rules come from template files, compiled policies and older exports, so a reader accepts both
spellings of a key. The first spelling that holds something wins: a value that is not `null`, or a
text that is not empty. What cannot be read is dropped in lenient mode and a fault in strict mode.
-/

namespace TaintPolicy

namespace Json

/-- The first of the named fields that is there and not `null`. -/
def firstPresent? (v : Json) (names : List String) : Option Json :=
  names.findSome? fun name => (v.get? name).filter fun w => !w.isNull

/-- The first of the named fields that is a text and not empty. -/
def firstText? (v : Json) (names : List String) : Option String :=
  names.findSome? fun name => nonEmpty ((v.get? name).bind text?)

end Json

def readClass (mode : Mode) (s : String) : Except Fault (Option TaintClass) :=
  match TaintClass.ofText? s with
  | some c => .ok (some c)
  | none => mode.tolerate (.unknownTaintClass s) none

def readOptionalClass (mode : Mode) : Option String → Except Fault (Option TaintClass)
  | none => .ok none
  | some s => readClass mode s

def readStep (mode : Mode) (v : Json) : Except Fault (Option TaintClass) :=
  match v.firstText? ["class", "Class"] with
  | some s => readClass mode s
  | none => mode.tolerate (.malformedPattern .stepWithoutClass) none

def readDistance (mode : Mode) (v : Json) : Except Fault (Option UInt64) :=
  match v.firstPresent? ["maxDistance", "max_distance"] with
  | none => .ok none
  | some w =>
    match w.word? with
    | some n => .ok (some n)
    | none => mode.tolerate (.malformedPattern .badDistance) none

def readSequence (mode : Mode) (v : Json) : Except Fault (Option SequencePattern) :=
  match (v.get? "steps").bind Json.items? with
  | none => mode.tolerate (.malformedPattern .stepsNotList) none
  | some entries => do
    let steps ← collect (readStep mode) entries
    let maxDistance ← readDistance mode v
    .ok (some ⟨steps, maxDistance⟩)

/-- A predicate that names a recognized class; `null` is none and no fault. -/
def readPredicate (mode : Mode) (v : Json) : Except Fault (Option Predicate) :=
  if v.isNull then .ok none
  else do
    let session ← readOptionalClass mode (v.firstText? ["session_has_class", "sessionHasClass"])
    let current ← readOptionalClass mode (v.firstText? ["current_tool_class", "currentToolClass"])
    let p : Predicate := ⟨session, current⟩
    if p.isEmpty then mode.tolerate (.malformedPattern .emptyPredicate) none
    else .ok (some p)

/-- The predicates of a branch; a branch without any is absent. -/
def readBranch (mode : Mode) : Option Json → Except Fault (Option (List Predicate))
  | none => .ok none
  | some v =>
    match v.items? with
    | none => mode.tolerate (.malformedPattern .branchNotList) none
    | some entries => do
      let ps ← collect (readPredicate mode) entries
      .ok (if ps.isEmpty then none else some ps)

def readCondition (mode : Mode) (v : Json) : Except Fault (Option Json) :=
  match v.firstPresent? ["condition"] with
  | none => .ok none
  | some c =>
    if c.isObject then .ok (some c)
    else mode.tolerate (.malformedPattern .conditionNotMapping) none

def readLogic (mode : Mode) (v : Json) : Except Fault (Option LogicPattern) :=
  if v.isObject then do
    let condition ← readCondition mode v
    let and ← readBranch mode (condition.bind fun c => c.firstPresent? ["AND", "and"])
    let or ← readBranch mode (condition.bind fun c => c.firstPresent? ["OR", "or"])
    .ok (some ⟨and, or⟩)
  else mode.tolerate (.malformedPattern .notMapping) none

/-- Reads the kind of pattern that the key `type` names. -/
def readPattern (mode : Mode) (v : Json) : Except Fault (Option Pattern) :=
  match (v.get? "type").bind Json.text? with
  | some "sequence" => (readSequence mode v).map fun p => p.map .sequence
  | some "logic" => (readLogic mode v).map fun p => p.map .logic
  | found => mode.tolerate (.unknownPatternType (found.getD "<missing>")) none

def readAction (mode : Mode) (v : Json) : Except Fault (Option TaintAction) :=
  match v.firstText? ["action"] with
  | none => mode.tolerate .missingAction none
  | some s =>
    match TaintAction.ofText? s with
    | some action => .ok (some action)
    | none => mode.tolerate (.unknownAction s) none

/-- The texts of a list that are not empty. -/
def keepTexts (entries : List Json) : List String :=
  entries.filterMap fun v => nonEmpty v.text?

def readTags (mode : Mode) (v : Json) : Except Fault (List String) :=
  match v.firstPresent? ["forbidden_tags", "forbiddenTags"] with
  | none => .ok []
  | some w =>
    match w.items? with
    | some entries => .ok (keepTexts entries)
    | none => mode.tolerate .forbiddenTagsNotList []

def readRulePattern (mode : Mode) (v : Json) : Except Fault (Option Pattern) :=
  match v.firstPresent? ["pattern"] with
  | none => .ok none
  | some w => readPattern mode w

/-- A rule that was read, with the id and the source that stood beside it. -/
structure ReadRule where
  rule : Rule
  id : Option String
  source : Option String
deriving DecidableEq, Repr, Inhabited

def checkTarget (mode : Mode) (r : Rule) : Except Fault Unit :=
  match r.targetDefect? with
  | none => .ok ()
  | some defect => mode.tolerate (.invalidTarget defect) ()

/-- Reads a rule. None is left of a rule without a usable action; every other piece that cannot be
read is absent from the rule. -/
def readRule (mode : Mode) (v : Json) : Except Fault (Option ReadRule) :=
  if v.isObject then do
    match ← readAction mode v with
    | none => .ok none
    | some action =>
      let toolClass ← readOptionalClass mode (v.firstText? ["tool_class", "toolClass"])
      let forbiddenTags ← readTags mode v
      let pattern ← readRulePattern mode v
      let rule : Rule := {
        action, toolClass, forbiddenTags, pattern
        tool := v.firstText? ["tool"]
        tag := v.firstText? ["tag"]
        error := v.firstText? ["error"] }
      checkTarget mode rule
      .ok (some {
        rule
        id := v.firstText? ["id"]
        source := v.firstText? ["sourceTemplate", "source_template"] })
  else mode.tolerate .ruleNotMapping none

end TaintPolicy
