import TaintPolicy.Json.Record

/-!
# The closed vocabularies

Taint classes of tools, actions of taint rules, and the static gate of a tool, each with the one
text that names it. Reading a text undoes writing it, and no other text is read.
-/

namespace TaintPolicy

/-- What a tool can do. -/
inductive TaintClass
  | safeRead | sensitiveRead | safeWrite | consequentialWrite | unsafeExecute | humanVerify
  | sanitizer
deriving DecidableEq, Repr, Inhabited

namespace TaintClass

def all : List TaintClass :=
  [safeRead, sensitiveRead, safeWrite, consequentialWrite, unsafeExecute, humanVerify, sanitizer]

def text : TaintClass → String
  | safeRead => "SAFE_READ"
  | sensitiveRead => "SENSITIVE_READ"
  | safeWrite => "SAFE_WRITE"
  | consequentialWrite => "CONSEQUENTIAL_WRITE"
  | unsafeExecute => "UNSAFE_EXECUTE"
  | humanVerify => "HUMAN_VERIFY"
  | sanitizer => "SANITIZER"

def ofText? (s : String) : Option TaintClass :=
  all.find? fun c => c.text = s

def toJson (c : TaintClass) : Json := .str c.text

def ofJson? : Json → Option TaintClass := Json.oneOf? ofText?

@[simp] theorem ofText?_text (c : TaintClass) : ofText? c.text = some c := by
  cases c <;> decide

theorem ofText?_eq_some_iff {s : String} {c : TaintClass} : ofText? s = some c ↔ s = c.text := by
  refine ⟨fun h => ?_, fun h => h ▸ ofText?_text c⟩
  have := List.find?_some h
  exact (of_decide_eq_true this).symm

@[simp] theorem ofJson?_toJson (c : TaintClass) : ofJson? c.toJson = some c := ofText?_text c

@[simp] theorem text_ne_empty (c : TaintClass) : c.text ≠ "" := by
  cases c <;> decide

end TaintClass

/-- What a taint rule does when it fires. -/
inductive TaintAction
  /-- Attaches the rule's tag to the session. -/
  | addTaint
  /-- Refuses the call if the session carries a forbidden tag. -/
  | checkTaint
  /-- Blocks the second matching call. -/
  | blockSecond
  /-- Blocks the call that completes the pattern. -/
  | blockCurrent
deriving DecidableEq, Repr, Inhabited

namespace TaintAction

def all : List TaintAction := [addTaint, checkTaint, blockSecond, blockCurrent]

def text : TaintAction → String
  | addTaint => "ADD_TAINT"
  | checkTaint => "CHECK_TAINT"
  | blockSecond => "BLOCK_SECOND"
  | blockCurrent => "BLOCK_CURRENT"

def ofText? (s : String) : Option TaintAction :=
  all.find? fun a => a.text = s

def toJson (a : TaintAction) : Json := .str a.text

def ofJson? : Json → Option TaintAction := Json.oneOf? ofText?

@[simp] theorem ofText?_text (a : TaintAction) : ofText? a.text = some a := by
  cases a <;> decide

@[simp] theorem ofJson?_toJson (a : TaintAction) : ofJson? a.toJson = some a := ofText?_text a

@[simp] theorem text_ne_empty (a : TaintAction) : a.text ≠ "" := by
  cases a <;> decide

end TaintAction

/-- The gate of a tool, whatever happened before in the session. -/
inductive Gate
  | allow | deny
deriving DecidableEq, Repr, Inhabited

namespace Gate

def text : Gate → String
  | allow => "ALLOW"
  | deny => "DENY"

def ofText? (s : String) : Option Gate :=
  [allow, deny].find? fun g => g.text = s

def toJson (g : Gate) : Json := .str g.text

def ofJson? : Json → Option Gate := Json.oneOf? ofText?

@[simp] theorem ofText?_text (g : Gate) : ofText? g.text = some g := by
  cases g <;> decide

@[simp] theorem ofJson?_toJson (g : Gate) : ofJson? g.toJson = some g := ofText?_text g

end Gate

end TaintPolicy
