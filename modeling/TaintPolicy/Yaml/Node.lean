import TaintPolicy.Yaml.Token

/-!
# Nodes

The tree that the tokens of a document spell. Anchors are numbered where they are read, and an alias
holds the number of the anchor whose name it repeats.
-/

namespace TaintPolicy.Yaml

inductive Node
  | reference (target : Nat)
  | scalar (anchor : Option Nat) (tag : Option String) (text : String) (plain : Bool)
  | sequence (anchor : Option Nat) (tag : Option String) (items : List Node)
  | mapping (anchor : Option Nat) (tag : Option String) (entries : List (Node × Node))
deriving Repr, Inhabited

namespace Node

/-- Stands where nothing is written. -/
def empty : Node := .scalar none none "" true

/-- The number of marks that list the tree: one for a leaf, two around a collection. -/
def size : Node → Nat
  | reference _ => 1
  | scalar .. => 1
  | sequence _ _ items => 2 + sizes items
  | mapping _ _ entries => 2 + entrySizes entries
where
  sizes : List Node → Nat
    | [] => 0
    | n :: ns => size n + sizes ns
  entrySizes : List (Node × Node) → Nat
    | [] => 0
    | (k, v) :: es => size k + size v + entrySizes es

/-- The nodes with an anchor, in the order in which they start. -/
def anchored : Node → List (Nat × Node)
  | reference _ => []
  | scalar a t s p => (a.map fun i => (i, scalar a t s p)).toList
  | sequence a t items =>
    (a.map fun i => (i, sequence a t items)).toList ++ anchoredItems items
  | mapping a t entries =>
    (a.map fun i => (i, mapping a t entries)).toList ++ anchoredEntries entries
where
  anchoredItems : List Node → List (Nat × Node)
    | [] => []
    | n :: ns => anchored n ++ anchoredItems ns
  anchoredEntries : List (Node × Node) → List (Nat × Node)
    | [] => []
    | (k, v) :: es => anchored k ++ anchored v ++ anchoredEntries es

end Node

/-- What is left to read of a document. -/
structure Reading where
  tokens : List Token
  /-- The numbers of the anchors by name. -/
  anchors : Fields Nat := []
  /-- What the handles of tags stand for. -/
  handles : Fields String := []

abbrev Reader := StateT Reading Option

namespace Reader

def head? : Reader (Option Token) := do
  return (← get).tokens.head?

def drop : Reader Unit :=
  modify fun r => { r with tokens := r.tokens.tail }

/-- Goes past a token that has to be there. -/
def expect (t : Token) : Reader Unit := do
  if (← head?) = some t then drop else failure

def isOneOf (ts : List Token) : Option Token → Bool
  | some t => ts.contains t
  | none => false

/-- Numbers a new anchor. A name that is declared again gets a new number, but it still counts as
one for the numbers of later names. -/
def declare (name : String) : Reader (Option Nat) := do
  let r ← get
  let number := r.anchors.length
  set { r with anchors := r.anchors.put name number }
  return some number

/-- The tag that a handle and the rest of a tag stand for. -/
def resolve (handle suffix : String) : Reader (Option String) := do
  if handle = "" then return some suffix
  else
    match (← get).handles.find? handle with
    | some lead => return some (lead ++ suffix)
    | none => failure

/-- An anchor and a tag, in either order. -/
def properties : Reader (Option Nat × Option String) := do
  match ← head? with
  | some (.anchor name) =>
    drop
    let a ← declare name
    match ← head? with
    | some (.tag handle suffix) => drop; return (a, ← resolve handle suffix)
    | _ => return (a, none)
  | some (.tag handle suffix) =>
    drop
    let t ← resolve handle suffix
    match ← head? with
    | some (.anchor name) => drop; return (← declare name, t)
    | _ => return (none, t)
  | _ => return (none, none)

/-- An exclamation mark alone leaves a scalar without a tag. -/
def scalarTag (tag : Option String) : Option String :=
  if tag = some "!" then none else tag

mutual

/-- A node in a block or a flow collection. Only the value or the key of a block mapping may be a
sequence that is not indented. -/
def node (block unindented : Bool) : Nat → Reader Node
  | 0 => failure
  | fuel + 1 => do
    match ← head? with
    | some (.reference name) =>
      drop
      match (← get).anchors.find? name with
      | some number => return .reference number
      | none => failure
    | _ =>
      let (a, t) ← properties
      match ← head? with
      | some (.scalar text plain) => drop; return .scalar a (scalarTag t) text plain
      | some .flowSequenceStart => drop; return .sequence a t (← flowItems true fuel)
      | some .flowMappingStart => drop; return .mapping a t (← flowEntries true fuel)
      | some .sequenceStart =>
        if block then do drop; return .sequence a t (← items fuel) else failure
      | some .mappingStart =>
        if block then do drop; return .mapping a t (← entries fuel) else failure
      | next =>
        if unindented && next = some .entry then return .sequence a t (← unindentedItems fuel)
        else if a.isSome || t.isSome then return .scalar a t "" true
        else failure

/-- A node, or nothing in front of one of the given tokens. -/
def nodeBefore (ends : List Token) (block unindented : Bool) : Nat → Reader Node
  | 0 => failure
  | fuel + 1 => do
    if isOneOf ends (← head?) then return .empty else node block unindented fuel

/-- The items of an indented sequence, with its end. -/
def items : Nat → Reader (List Node)
  | 0 => failure
  | fuel + 1 => do
    match ← head? with
    | some .entry =>
      drop
      let n ← nodeBefore [.entry, .blockEnd] true false fuel
      return n :: (← items fuel)
    | some .blockEnd => drop; return []
    | _ => failure

/-- The items of a sequence that is not indented under its key. -/
def unindentedItems : Nat → Reader (List Node)
  | 0 => failure
  | fuel + 1 => do
    match ← head? with
    | some .entry =>
      drop
      let n ← nodeBefore [.entry, .key, .value, .blockEnd] true false fuel
      return n :: (← unindentedItems fuel)
    | _ => return []

def entries : Nat → Reader (List (Node × Node))
  | 0 => failure
  | fuel + 1 => do
    match ← head? with
    | some .key =>
      drop
      let k ← nodeBefore [.key, .value, .blockEnd] true true fuel
      let v ← valueBefore [.key, .value, .blockEnd] true fuel
      return (k, v) :: (← entries fuel)
    | some .blockEnd => drop; return []
    | _ => failure

/-- What follows a mark for a value; nothing without such a mark. -/
def valueBefore (ends : List Token) (block : Bool) : Nat → Reader Node
  | 0 => failure
  | fuel + 1 => do
    match ← head? with
    | some .value => drop; nodeBefore ends block block fuel
    | _ => return .empty

/-- The items of a flow sequence, with its end. An item with a key mark is a mapping of one entry; a
key that is missing there takes the token after its mark with it. -/
def flowItems (first : Bool) : Nat → Reader (List Node)
  | 0 => failure
  | fuel + 1 => do
    if (← head?) = some .flowSequenceEnd then drop; return []
    if !first then expect .flowEntry
    match ← head? with
    | some .flowSequenceEnd => drop; return []
    | some .key =>
      drop
      let isEmpty := isOneOf [.value, .flowEntry, .flowSequenceEnd] (← head?)
      let k ← if isEmpty then (do drop; return .empty) else node false false fuel
      let v ← valueBefore [.flowEntry, .flowSequenceEnd] false fuel
      return .mapping none none [(k, v)] :: (← flowItems false fuel)
    | _ =>
      let n ← node false false fuel
      return n :: (← flowItems false fuel)

/-- The entries of a flow mapping, with its end. An entry without a key mark has no value. -/
def flowEntries (first : Bool) : Nat → Reader (List (Node × Node))
  | 0 => failure
  | fuel + 1 => do
    if (← head?) = some .flowMappingEnd then drop; return []
    if !first then expect .flowEntry
    match ← head? with
    | some .flowMappingEnd => drop; return []
    | some .key =>
      drop
      let k ← nodeBefore [.value, .flowEntry, .flowMappingEnd] false false fuel
      let v ← valueBefore [.flowEntry, .flowMappingEnd] false fuel
      return (k, v) :: (← flowEntries false fuel)
    | _ =>
      let k ← node false false fuel
      return (k, .empty) :: (← flowEntries false fuel)

end

def defaultHandles : Fields String := [("!", "!"), ("!!", "tag:yaml.org,2002:")]

/-- The directives in front of a document: at most one version, and no handle twice. -/
def directives (hasVersion : Bool) (handles : Fields String) :
    List Token → Option (Fields String × List Token)
  | .directive (.version major minor) :: ts =>
    if hasVersion || major ≠ 1 || (minor ≠ 1 && minor ≠ 2) then none else directives true handles ts
  | .directive (.tag handle lead) :: ts =>
    if (handles.find? handle).isSome then none
    else directives hasVersion (handles ++ [(handle, lead)]) ts
  | ts => some (handles, ts)

/-- No content follows. -/
def atDocumentEnd : List Token → Bool
  | [] => true
  | .directive _ :: _ => true
  | .documentStart :: _ => true
  | .documentEnd :: _ => true
  | _ => false

/-- The tokens after the start of a document, and the handles declared for it. -/
def content? (ts : List Token) : Option (Fields String × List Token × Bool) := do
  let (handles, rest) ← directives false [] ts
  match rest with
  | .documentStart :: rest => some (handles ++ defaultHandles, rest, true)
  | _ => if rest.length = ts.length then some (defaultHandles, ts, false) else none

end Reader

/-- The only document of a text. A text without a token holds an empty node. -/
def Node.ofTokens? (ts : List Token) : Option Node :=
  if ts.isEmpty then some .empty
  else do
    let (handles, tokens, explicit) ← Reader.content? ts
    if explicit && Reader.atDocumentEnd tokens then
      if tokens.all (· = .documentEnd) then some .empty else none
    else
      let (n, r) ← (Reader.node true false (4 * tokens.length + 4)).run { tokens, handles }
      if r.tokens.all (· = .documentEnd) then some n else none

def Node.ofText? (text : String) : Option Node :=
  (Token.ofText? text).bind Node.ofTokens?

end TaintPolicy.Yaml
