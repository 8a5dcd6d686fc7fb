import TaintPolicy.Text.Blank
import TaintPolicy.Tool.Basic
import TaintPolicy.Tool.Glob

/-!
# Tool catalogs

Tools in the order of their registry, with the three ways to find them: by name, by words, by glob.
-/

namespace TaintPolicy

structure Catalog where
  tools : List Tool
deriving DecidableEq, Inhabited

/-- The characters stand next to each other somewhere in the text. -/
def isWithin (needle : List Char) : List Char → Bool
  | [] => needle.isEmpty
  | c :: cs => needle.isPrefixOf (c :: cs) || isWithin needle cs

namespace Catalog

def empty : Catalog := ⟨[]⟩

/-- The first tool of that name. -/
def get? (c : Catalog) (name : String) : Option Tool :=
  c.tools.find? fun t => t.name = name

section lookup

variable {c : Catalog} {name : String} {t : Tool}

theorem name_of_get? (h : c.get? name = some t) : t.name = name := by
  have hd := List.find?_some h
  exact of_decide_eq_true hd

theorem mem_of_get? (h : c.get? name = some t) : t ∈ c.tools :=
  List.mem_of_find?_eq_some h

theorem isSome_get?_of_mem (h : t ∈ c.tools) : (c.get? t.name).isSome :=
  List.find?_isSome.mpr ⟨t, h, decide_eq_true rfl⟩

end lookup

def mentions (query : List Char) (s : String) : Bool :=
  isWithin query (lowercase s).toList

/-- The tools that hold the words of the query in one of their texts, in any case. Every tool holds
a blank query. -/
def search (c : Catalog) (query : String) : List Tool :=
  let query := (lowercase (trim query)).toList
  c.tools.filter fun t => query.isEmpty || mentions query t.name || mentions query t.displayName ||
    mentions query t.description || mentions query t.taintClass.text

/-- The tools whose name the glob matches, in catalog order. -/
def glob (c : Catalog) (pattern : String) : Except Fault (List Tool) :=
  (Glob.tokens? pattern).map fun tokens => c.tools.filter fun t => Glob.accepts tokens t.name

end Catalog

end TaintPolicy
