import TaintPolicy.Toml.Basic

/-!
# Tables under construction

A document defines its tables piece by piece: by a header, by a dotted key, or by standing above a
table that is defined. What was defined once is not defined again, and a table that a header or an
inline value closed is not extended by a dotted key.
-/

namespace TaintPolicy.Toml

/-- How a table came to be. -/
inductive Origin
  /-- It stands above the table of a header. -/
  | implied
  | dotted
  | header
deriving DecidableEq, Repr

inductive Item
  | value (v : Value)
  | table (origin : Origin) (entries : List (String × Item))
  /-- Tables of which each header adds one. -/
  | tables (items : List (List (String × Item)))
deriving Inhabited

namespace Item

/-- The value that is defined in the end. -/
def toValue : Item → Value
  | value v => v
  | table _ entries => .table (fieldsOf entries)
  | tables items => .array (tablesOf items)
where
  fieldsOf : List (String × Item) → List (String × Value)
    | [] => []
    | (k, i) :: es => (k, toValue i) :: fieldsOf es
  tablesOf : List (List (String × Item)) → List Value
    | [] => []
    | es :: rest => .table (fieldsOf es) :: tablesOf rest

end Item

abbrev Change := Origin → Fields Item → Option (Fields Item)

/-- Changes the table at a path below a table; the tables on the way are created where they are
missing. Of several tables under one name the last one is meant. -/
def changeAt (dotted : Bool) (change : Change) : List String → Change
  | [], origin, entries => change origin entries
  | k :: ks, _, entries =>
    match Fields.find? k entries with
    | none => do
      let origin := if dotted then Origin.dotted else .implied
      let es ← changeAt dotted change ks origin []
      some (entries ++ [(k, .table origin es)])
    | some (.value _) => none
    | some (.table origin es) =>
      if dotted && origin = .header then none
      else do
        let es ← changeAt dotted change ks origin es
        some (Fields.put k (.table origin es) entries)
    | some (.tables items) => do
      let last ← items.getLast?
      let es ← changeAt dotted change ks .header last
      some (Fields.put k (.tables (items.dropLast ++ [es])) entries)

/-- Defines a key by its parts in a table. -/
def define (ks : List String) (k : String) (v : Value) : Change :=
  changeAt true (fun origin entries =>
    if (!ks.isEmpty && origin ≠ .dotted) || (Fields.find? k entries).isSome then none
    else some (entries ++ [(k, .value v)])) ks

/-- The change that the header of a table makes above it. -/
def openTable (k : String) : Change := fun _ entries =>
  match Fields.find? k entries with
  | none => some (entries ++ [(k, .table .header [])])
  | some (.table .implied es) => some (Fields.put k (.table .header es) entries)
  | _ => none

/-- The change that the header of one more table makes above it. -/
def addTable (k : String) : Change := fun _ entries =>
  match Fields.find? k entries with
  | none => some (entries ++ [(k, .tables [[]])])
  | some (.tables items) => some (Fields.put k (.tables (items ++ [[]])) entries)
  | _ => none

end TaintPolicy.Toml
