import TaintPolicy.Json.Basic

/-!
# Records in JSON

Reading the fields of a record, and writing those that are set. A record is an object, or a list of
its fields' values in order; names that the record does not have are ignored.
-/

namespace TaintPolicy.Json

variable {α β : Type}

/-- The named values of a record. A list may leave out fields at its end, `least` of them not. -/
def record? (names : List String) (least : Nat) : Json → Option (Fields Json)
  | obj fs => some fs
  | arr vs => if least ≤ vs.length ∧ vs.length ≤ names.length then some (names.zip vs) else none
  | _ => none

/-- A field that has to be there. -/
def field? (read : Json → Option α) (name : String) (fs : Fields Json) : Option α :=
  (Fields.find? name fs).bind read

/-- Reads `null` as nothing. -/
def nullable? (read : Json → Option α) : Json → Option (Option α)
  | null => some none
  | v => (read v).map some

/-- A field that may be missing, then with the value `none`. -/
def optional? (read : Json → Option α) (name : String) (fs : Fields Json) : Option (Option α) :=
  match Fields.find? name fs with
  | none => some none
  | some v => nullable? read v

/-- A field that may be missing, then with the given value. -/
def defaulted? (read : Json → Option α) (fallback : α) (name : String) (fs : Fields Json) :
    Option α :=
  match Fields.find? name fs with
  | none => some fallback
  | some v => read v

def readAll? (read : Json → Option α) : List Json → Option (List α)
  | [] => some []
  | v :: vs => do
    let a ← read v
    let as ← readAll? read vs
    some (a :: as)

def list? (read : Json → Option α) : Json → Option (List α)
  | arr vs => readAll? read vs
  | _ => none

def flag? : Json → Option Bool
  | bool b => some b
  | _ => none

/-- One of a closed set of words: a text, or an object with the word as its one field, set to
`null`. -/
def oneOf? (ofText? : String → Option α) : Json → Option α
  | str s => ofText? s
  | obj [(k, null)] => ofText? k
  | _ => none

def fieldWhen (name : String) : Option Json → Fields Json
  | none => []
  | some v => [(name, v)]

/-- A field that holds a list, left out where the list is empty. -/
def fieldUnlessEmpty (name : String) : List Json → Fields Json
  | [] => []
  | vs => [(name, arr vs)]

def textOrNull : Option String → Json
  | none => null
  | some s => str s

@[simp] theorem record?_obj (names : List String) (least : Nat) (fs : Fields Json) :
    record? names least (obj fs) = some fs := rfl

@[simp] theorem fieldWhen_none (name : String) : fieldWhen name none = [] := rfl

@[simp] theorem fieldWhen_some (name : String) (v : Json) : fieldWhen name (some v) = [(name, v)] :=
  rfl

theorem readAll?_map (read : Json → Option α) (write : α → Json) (h : ∀ a, read (write a) = some a)
    (as : List α) : readAll? read (as.map write) = some as := by
  induction as with
  | nil => rfl
  | cons a as ih => simp [readAll?, h, ih]

theorem list?_map (read : Json → Option α) (write : α → Json) (h : ∀ a, read (write a) = some a)
    (as : List α) : list? read (arr (as.map write)) = some as :=
  readAll?_map read write h as

end TaintPolicy.Json
