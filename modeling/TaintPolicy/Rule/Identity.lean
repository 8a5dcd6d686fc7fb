import TaintPolicy.Digest
import TaintPolicy.Json.Printer
import TaintPolicy.Rule.Entry

/-!
# Rule ids

A rule of a template is named by the template and its position there. A rule that is imported or
written by hand keeps the id it carries; without one it gets an id of its position and a token,
which is a fingerprint of its compiled entry or a fresh random word.

Ids may collide. Where a rule is looked up by id, the last one with that id counts.
-/

namespace TaintPolicy

/-- Where the tokens of imported ids come from. -/
inductive Identity
  | fingerprint | random
deriving DecidableEq, Repr, Inhabited

namespace Identity

def text : Identity → String
  | fingerprint => "fingerprint"
  | random => "random"

def ofText? (s : String) : Option Identity :=
  [fingerprint, random].find? fun i => i.text = s

end Identity

/-- The text that a fingerprint is taken of. -/
def Rule.entryText (r : Rule) : String :=
  r.toEntry.toJson.compact

/-- The first sixteen hexadecimal digits of the digest of the compiled entry. Rules with the same
entry share it. -/
def Rule.fingerprint (r : Rule) : String :=
  String.ofList ((Digest.sha256Hex r.entryText).toList.take 16)

/-- A source of tokens: the content of the rule, or one random word per position. -/
inductive Assigner
  | fingerprint
  | random (words : Nat → String)

/-- Thirty-two hexadecimal digits that depend on a seed and a position, in the form of a random
identifier: the thirteenth digit is a four and the seventeenth lies between eight and eleven. -/
def randomWord (seed : String) (index : Nat) : String :=
  let ds := (Digest.sha256Hex (seed ++ "-" ++ Nat.repr index)).toList
  let variant := ['8', '9', 'a', 'b'].drop (((ds[16]?.bind hexValue?).getD 0) % 4)
  String.ofList (ds.take 12 ++ '4' :: (ds.drop 13).take 3 ++ variant.take 1 ++ (ds.drop 17).take 15)

def Identity.assigner (seed : String) : Identity → Assigner
  | fingerprint => .fingerprint
  | random => .random (randomWord seed)

/-- The source of a rule that did not come from a template. -/
def importedSource : String := "imported"

/-- The source of a rule that was written by hand. -/
def authoredSource : String := "custom"

def templateId (template : String) (index : Nat) : String :=
  template ++ "-" ++ Nat.repr index

namespace Assigner

def token (assigner : Assigner) (index : Nat) (r : Rule) : String :=
  match assigner with
  | fingerprint => r.fingerprint
  | random words => words index

def importedId (assigner : Assigner) (index : Nat) (r : Rule) : String :=
  importedSource ++ "-" ++ Nat.repr index ++ "-" ++ assigner.token index r

/-- Names an imported rule, by the id it carries if that is not empty. -/
def name (assigner : Assigner) (index : Nat) (r : Rule) (id source : Option String) :
    NamedRule where
  id := (nonEmpty id).getD (assigner.importedId index r)
  source := source.getD importedSource
  rule := r

end Assigner

/-- Names the rule at a position of a template. -/
def nameInTemplate (template : String) (index : Nat) (r : Rule) : NamedRule where
  id := templateId template index
  source := template
  rule := r

/-- The words that occur again, each at its second occurrence; `seen` are those before. -/
def repeatedFrom (seen : List String) : List String → List String
  | [] => []
  | s :: rest =>
    if seen.count s = 1 then s :: repeatedFrom (s :: seen) rest else repeatedFrom (s :: seen) rest

/-- The ids that several rules share, each once, in the order in which they were repeated. -/
def duplicateIds (rules : List NamedRule) : List String :=
  repeatedFrom [] (rules.map (·.id))

/-- The rules by id. -/
def indexById (rules : List NamedRule) : Fields NamedRule :=
  rules.foldl (fun index r => index.put r.id r) []

end TaintPolicy
