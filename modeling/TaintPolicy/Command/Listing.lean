import TaintPolicy.Selection
import TaintPolicy.Text.Column

/-!
# Listings

The tables that commands print. A text that is wider than its column pushes the columns after it to
the right.
-/

namespace TaintPolicy

def unlines (lines : List String) : String :=
  String.join (lines.map fun l => l ++ "\n")

/-- What a rule applies to. -/
def Rule.targetText (r : Rule) : String :=
  if r.pattern.isSome then "pattern"
  else
    match r.tool, r.toolClass with
    | some tool, _ => "tool=" ++ tool
    | none, some c => "class=" ++ c.text
    | none, none => "no target"

/-- A rule in one line. -/
def Rule.summary (r : Rule) : String :=
  let tag := match r.tag with
    | some tag => " tag=" ++ tag
    | none => ""
  let forbidden :=
    if r.forbiddenTags.isEmpty then "" else " forbidden=" ++ ",".intercalate r.forbiddenTags
  padRight 14 r.action.text ++ " " ++ r.targetText ++ tag ++ forbidden

namespace Command

def toolLine (t : Tool) : String :=
  (if t.isCommon then "*" else " ") ++ padRight 23 t.name ++ " " ++
    padRight 22 t.taintClass.text ++ " " ++ t.description

/-- The tools of the registry at a path; common picks have a star. -/
def toolListing (path : String) (tools : List Tool) : String :=
  if tools.isEmpty then unlines ["No tools found in " ++ path]
  else
    unlines ((padRight 24 "TOOL" ++ " " ++ padRight 22 "CLASS" ++ " DESCRIPTION") ::
      dashes 80 :: tools.map toolLine)

def guideLines (g : ClassGuide) : List String :=
  [g.taintClass.text, "  " ++ g.description] ++
    (if g.classificationRule = "" then [] else ["  rule:      " ++ g.classificationRule]) ++
    (if g.exampleName = "" then []
      else ["  example:   " ++ g.exampleName ++ " (" ++ g.exampleDescription ++ ")"]) ++
    (if g.necessity = "" then [] else ["  necessity: " ++ g.necessity]) ++ [""]

def guideListing (path : String) (guides : List ClassGuide) : String :=
  if guides.isEmpty then unlines ["No class definitions found in " ++ path]
  else unlines (guides.flatMap guideLines)

def templateLines (t : Template) : List String :=
  [t.name ++ " (" ++ Nat.repr t.rules.length ++ " rules)"] ++
    (if t.description = "" then [] else ["  " ++ t.description]) ++
    t.gates.map (fun g => "  static  " ++ padRight 20 g.1 ++ " " ++ g.2.text) ++
    t.rules.map (fun r => "  " ++ padRight 28 r.id ++ " " ++ r.rule.summary) ++ [""]

def templateListing (path : String) (templates : List Template) : String :=
  if templates.isEmpty then unlines ["No rule templates found in " ++ path]
  else unlines (templates.flatMap templateLines)

/-- The rules worth showing beside a selection; those it holds are marked. -/
def relevantListing (s : Selection) (rules : List NamedRule) : String :=
  if rules.isEmpty then unlines ["No relevant rules for the selected tools."]
  else
    unlines (rules.map fun r =>
      (if s.hasRule r.id then "[x]" else "[ ]") ++ " " ++ padRight 28 r.id ++ " " ++ r.rule.summary)

def selectedLine (t : Selected) : String :=
  padRight 24 t.name ++ " " ++ padRight 22 t.tool.taintClass.text ++ " " ++ t.gate.text

def selectionListing (s : Selection) : String :=
  unlines (
    ["Policy: " ++ s.policyName, "",
      padRight 24 "TOOL" ++ " " ++ padRight 22 "CLASS" ++ " STATIC", dashes 60] ++
    s.tools.map selectedLine ++
    ["", padRight 40 "ID" ++ " RULE", dashes 80] ++
    s.rules.map fun r => padRight 40 r.id ++ " " ++ r.rule.summary)

end Command

end TaintPolicy
