import TaintPolicy.Fault
import TaintPolicy.Json.Basic
import TaintPolicy.Yaml.Node

/-!
# Documents

A tree of nodes with what its aliases stand for, and its value as JSON. Following aliases is
bounded: by the nesting of collections, so that a node inside itself has no value, and by their
number.
-/

namespace TaintPolicy.Yaml

structure Document where
  root : Node
  /-- The nodes with anchors, the last one to start first. -/
  targets : List (Nat × Node)
  /-- How often aliases may be followed. -/
  limit : Nat

/-- A computation that counts the aliases it follows. -/
abbrev Walk := StateT Nat Option

/-- Collections may be nested so deep. -/
def maxDepth : Nat := 128

/-- A tag of the document's own, without its exclamation mark unless that is all there is. -/
def localTag? (tag : Option String) : Option String := do
  let t ← tag
  match t.toList with
  | ['!'] => some t
  | '!' :: name => some (String.ofList name)
  | _ => none

namespace Document

def ofNode (root : Node) : Document where
  root := root
  targets := root.anchored.reverse
  limit := 100 * root.size

def ofText? (text : String) : Option Document :=
  (Node.ofText? text).map ofNode

/-- The node itself, or the node that an alias stands for. -/
def resolved (d : Document) : Node → Walk Node
  | .reference target => do
    let followed := (← get) + 1
    set followed
    if d.limit < followed then failure
    else
      match d.targets.find? fun e => e.1 = target with
      | some e => return e.2
      | none => failure
  | n => return n

/-- The text of a scalar, whatever its tag. -/
def text (d : Document) (n : Node) : Walk String := do
  match ← d.resolved n with
  | .scalar _ _ text _ => return text
  | _ => failure

/-- The items of a sequence; nothing has none. -/
def items (d : Document) (n : Node) : Walk (List Node) := do
  match ← d.resolved n with
  | .sequence _ _ items => return items
  | .scalar _ _ "" _ => return []
  | _ => failure

/-- The entries of a mapping; nothing has none. -/
def entries (d : Document) (n : Node) : Walk (List (Node × Node)) := do
  match ← d.resolved n with
  | .mapping _ _ entries => return entries
  | .scalar _ _ "" _ => return []
  | _ => failure

/-- The nodes under the known names of a record, each at most once. -/
def record (d : Document) (known : List String) (n : Node) : Walk (Fields Node) := do
  (← d.entries n).foldlM (fun fs e => do
    let name ← d.text e.1
    if !known.contains name then return fs
    else if (Fields.find? name fs).isSome then failure
    else return fs ++ [(name, e.2)]) []

end Document

def coreTag (name : String) : String := "tag:yaml.org,2002:" ++ name

/-- The meaning of a scalar. Four tags ask for a value of a type; any other tag makes a text, and so
does a quote. -/
def Scalar.ofTagged? (tag : Option String) (text : String) (plain : Bool) : Option Scalar :=
  let cs := text.toList
  match tag with
  | none => some (if plain then Scalar.ofPlain cs else .text)
  | some t =>
    if t = coreTag "bool" then (boolOf? cs).map .bool
    else if t = coreTag "int" then (integer? cs).map .int
    else if t = coreTag "float" then fractional? cs
    else if t = coreTag "null" then if spellsNull cs then some .null else none
    else some .text

/-- The JSON value of a scalar. An infinite value or none at all is `null`; an integer has to fit a
64-bit word. -/
def Scalar.json? (text : String) : Scalar → Option Json
  | .null => some .null
  | .bool b => some (.bool b)
  | .int i => if Number.fitsWord i then some (.num (.int i)) else none
  | .real d => some (.num (.real d))
  | .infinity _ => some .null
  | .notNumber => some .null
  | .text => some (.str text)

namespace Document

/-- The JSON value of a node: keys are the texts of scalars, and of equal keys the last value stands
at the first position. A tag of the document's own has no JSON value. -/
def json (d : Document) (depth : Nat) (n : Node) : Walk Json := do
  match ← d.resolved n with
  | .reference _ => failure
  | .scalar _ tag text plain =>
    if (localTag? tag).isSome then failure
    else
      match (Scalar.ofTagged? tag text plain).bind (Scalar.json? text) with
      | some v => return v
      | none => failure
  | .sequence _ tag items =>
    match depth with
    | 0 => failure
    | depth + 1 =>
      if (localTag? tag).isSome then failure
      else return .arr (← items.mapM (json d depth))
  | .mapping _ tag entries =>
    match depth with
    | 0 => failure
    | depth + 1 =>
      if (localTag? tag).isSome then failure
      else
        let fields ← entries.mapM fun e => do
          let key ← d.text e.1
          return (key, ← json d depth e.2)
        return .obj (Fields.ofEntries fields)

end Document

/-- The JSON value of a text with one document. -/
def json? (text : String) : Option Json := do
  let d ← Document.ofText? text
  let (v, _) ← (d.json maxDepth d.root).run 0
  some v

def read (text : String) : Except Fault Json :=
  match json? text with
  | some v => .ok v
  | none => .error .unreadableYaml

end TaintPolicy.Yaml
