import TaintPolicy.Text.CaseTable

/-!
# Letter case

Full case mapping of a text, in which one character may become several. A capital sigma that ends a
word has a small form of its own.
-/

namespace TaintPolicy

def inRanges (ranges : List (Nat × Nat)) (n : Nat) : Bool :=
  ranges.any fun r => r.1 ≤ n && n ≤ r.2

def isCased (c : Char) : Bool := inRanges casedRanges c.toNat

def isCaseIgnorable (c : Char) : Bool := inRanges caseIgnorableRanges c.toNat

def shiftCase (shifts : List (Nat × Nat × Nat × Int)) (n : Nat) : Nat :=
  match shifts.find? fun s => s.1 ≤ n && n ≤ s.2.1 && (n - s.1) % s.2.2.1 == 0 with
  | some s => (n + s.2.2.2).toNat
  | none => n

def mapCase (shifts : List (Nat × Nat × Nat × Int)) (expansions : List (Nat × List Nat))
    (n : Nat) : List Char :=
  match expansions.find? fun e => e.1 == n with
  | some e => e.2.map Char.ofNat
  | none => [Char.ofNat (shiftCase shifts n)]

/-- The full uppercase of a character. -/
def upperChars (c : Char) : List Char :=
  if c.toNat < 0x80 then [c.toUpper] else mapCase upperShifts upperExpansions c.toNat

/-- The lowercase of a character wherever it stands. -/
def lowerChars (c : Char) : List Char :=
  if c.toNat < 0x80 then [c.toLower] else mapCase lowerShifts lowerExpansions c.toNat

/-- Some cased letter comes first once characters that casing ignores are left out. -/
def startsCased (cs : List Char) : Bool :=
  (cs.dropWhile isCaseIgnorable).head?.any isCased

/-- Lowercases `cs`, which comes after the reversed characters `before`. -/
def lowercaseAfter (before : List Char) : List Char → List Char
  | [] => []
  | c :: cs =>
    let small :=
      if c = 'Σ' then [if startsCased before && !startsCased cs then 'ς' else 'σ']
      else lowerChars c
    small ++ lowercaseAfter (c :: before) cs

def lowercase (s : String) : String :=
  String.ofList (lowercaseAfter [] s.toList)

/-- The text with its first character in uppercase. -/
def capitalize : List Char → List Char
  | [] => []
  | c :: cs => upperChars c ++ cs

end TaintPolicy
