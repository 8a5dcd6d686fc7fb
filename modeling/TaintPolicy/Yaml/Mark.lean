import TaintPolicy.Yaml.Scalar

/-!
# Positions in a text

Where a reader of YAML stands, and the characters a YAML text may hold. Every line break but the two
Unicode separators is read as a line feed.
-/

namespace TaintPolicy.Yaml

/-- May stand in a YAML text. -/
def isAllowed (c : Char) : Bool :=
  let n := c.toNat
  n = 0x09 || n = 0x0A || n = 0x0D || (0x20 ≤ n && n ≤ 0x7E) || n = 0x85 ||
    (0xA0 ≤ n && n ≤ 0xD7FF) || (0xE000 ≤ n && n ≤ 0xFFFD) || 0x10000 ≤ n

def unifyBreaks : List Char → List Char
  | '\r' :: '\n' :: cs => '\n' :: unifyBreaks cs
  | c :: cs => (if c = '\r' ∨ c = '\x85' then '\n' else c) :: unifyBreaks cs
  | [] => []

structure Mark where
  index : Nat := 0
  line : Nat := 0
  column : Nat := 0
deriving DecidableEq, Repr, Inhabited

namespace Mark

/-- After one more character. -/
def next (m : Mark) (c : Char) : Mark :=
  if isLineBreak c then ⟨m.index + 1, m.line + 1, 0⟩ else ⟨m.index + 1, m.line, m.column + 1⟩

/-- After some more characters. -/
def past (m : Mark) (cs : List Char) : Mark := cs.foldl next m

end Mark

def isBlank (c : Char) : Bool := c = ' ' || c = '\t'

/-- The text ends here, or a blank or a line break comes next. -/
def atGap (cs : List Char) : Bool := cs.head?.all fun c => isBlank c || isLineBreak c

/-- A line that opens or closes a document starts here. -/
def atDocumentMark (m : Mark) : List Char → Bool
  | a :: b :: c :: rest =>
    m.column = 0 && a = b && b = c && (a = '-' || a = '.') && atGap rest
  | _ => false

/-- Letters, digits, the low line and the hyphen. -/
def isWordChar (c : Char) : Bool := c.isAlphanum || c = '_' || c = '-'

/-- Blanks and line breaks inside a scalar, kept until the next character shows what they stand
for. -/
inductive Gap
  | none
  | blanks (reversed : List Char)
  | lines (first : List Char) (reversed : List Char)
deriving DecidableEq, Repr

namespace Gap

def addBlank (c : Char) : Gap → Gap
  | none => blanks [c]
  | blanks cs => blanks (c :: cs)
  | lines first more => lines first more

def addBreak (c : Char) : Gap → Gap
  | none => lines [c] []
  | blanks _ => lines [c] []
  | lines first more => lines first (c :: more)

def isNone : Gap → Bool
  | none => true
  | _ => false

def isLines : Gap → Bool
  | lines _ _ => true
  | _ => false

/-- A single line feed stands for a blank, and the first of several for nothing. -/
def text : Gap → List Char
  | none => []
  | blanks cs => cs.reverse
  | lines first more =>
    if first = ['\n'] then (if more.isEmpty then [' '] else more.reverse) else first ++ more.reverse

end Gap

end TaintPolicy.Yaml
