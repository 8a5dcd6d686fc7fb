import TaintPolicy.Project.Host
import TaintPolicy.Text.Pieces

/-!
# Directories held in memory

A directory with all that stands below it, as a machine for the programs that run in it. A part of a
path is looked up in a directory only; two dots stand for the directory above, and never leave the
outermost one.
-/

namespace TaintPolicy

inductive Tree
  | file (bytes : ByteArray)
  | directory (entries : List (String × Tree))
deriving Inhabited

namespace Tree

def empty : Tree := .directory []

def isDirectory : Tree → Bool
  | directory _ => true
  | file _ => false

/-- What stands at a list of names. -/
def get? : List String → Tree → Option Tree
  | [], t => some t
  | k :: ks, directory entries => (Fields.find? k entries).bind (get? ks)
  | _ :: _, file _ => none

/-- Puts a tree at a list of names; directories on the way are created where they are missing. -/
def put (new : Tree) : List String → Tree → Tree
  | [], _ => new
  | k :: ks, directory entries =>
    directory (Fields.put k (put new ks ((Fields.find? k entries).getD empty)) entries)
  | k :: ks, file _ => directory [(k, put new ks empty)]

/-- The names that lead to the end of a path, from the reversed names of its start. -/
def locate (t : Tree) (start : List String) : List String → Option (List String)
  | [] => some start.reverse
  | p :: ps =>
    if ((t.get? start.reverse).map isDirectory).getD false then
      if p = "" ∨ p = "." then locate t start ps
      else if p = ".." then
        match start with
        | [] => none
        | _ :: above => locate t above ps
      else locate t (p :: start) ps
    else none

/-- The part of a path below the outermost directory. -/
def below? (root path : String) : Option (List Char) :=
  let inRoot := (root ++ "/").toList
  if path = "" then none
  else if path = root then some []
  else if inRoot.isPrefixOf path.toList then some (path.toList.drop inRoot.length)
  else if Path.isAbsolute path then none
  else some path.toList

def names? (root path : String) (t : Tree) : Option (List String) := do
  let cs ← below? root path
  t.locate [] ((piecesAt '/' cs).map String.ofList)

def find? (root path : String) (t : Tree) : Option Tree := do
  t.get? (← t.names? root path)

def readText? (root path : String) (t : Tree) : Option String :=
  match t.find? root path with
  | some (.file bytes) => String.fromUTF8? bytes
  | _ => none

/-- Writes a file unless a directory stands at its path, or none stands above it. -/
def write? (root path text : String) (t : Tree) : Option Tree := do
  let names ← t.names? root path
  match t.get? names with
  | some (.directory _) => none
  | _ => if names.isEmpty then none else some (put (.file text.toUTF8) names t)

def absolute? (root path : String) (t : Tree) : Option String := do
  let names ← t.names? root path
  if (t.get? names).isSome then some ("/".intercalate (root :: names)) else none

/-- A machine on which the directory stands at `root`, with a clock that does not move. -/
def host (root : String) (now : Timestamp) (seed : String) : Host (StateM Tree) where
  read path := return (← get).readText? root path
  holds path := return ((← get).find? root path).isSome
  absolute path := return (← get).absolute? root path
  write path text := do
    match (← get).write? root path text with
    | some t => set t; return true
    | none => return false
  now := return now
  seed := return seed

end Tree

end TaintPolicy
