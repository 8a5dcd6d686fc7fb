import TaintPolicy.Rule.Basic

/-!
# Relevant rules

Which rules are worth showing beside a choice of tools. A rule matters if it names a chosen tool, or
mentions a chosen class anywhere in its target or its pattern. While nothing is chosen every rule is
shown.
-/

namespace TaintPolicy

/-- The names and the classes of the chosen tools. -/
structure Focus where
  tools : List String
  classes : List TaintClass
deriving DecidableEq, Repr, Inhabited

namespace Focus

def isUnfiltered (f : Focus) : Bool := f.tools.isEmpty && f.classes.isEmpty

/-- Names a chosen tool or mentions a chosen class. -/
def matchesRule (f : Focus) (r : Rule) : Bool :=
  r.tool.any (f.tools.contains ·) || r.toolClass.any (f.classes.contains ·) ||
    r.pattern.any fun p => p.classes.any (f.classes.contains ·)

def isRelevant (f : Focus) (r : Rule) : Bool := f.isUnfiltered || f.matchesRule r

/-- The relevant rules in the order of the corpus. -/
def filter (f : Focus) (corpus : List NamedRule) : List NamedRule :=
  corpus.filter fun r => f.isRelevant r.rule

theorem filter_of_isUnfiltered {f : Focus} (h : f.isUnfiltered = true) (corpus : List NamedRule) :
    f.filter corpus = corpus := by
  simp [filter, isRelevant, h]

end Focus

end TaintPolicy
