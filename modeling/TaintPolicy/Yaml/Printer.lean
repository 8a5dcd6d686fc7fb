import TaintPolicy.Json.Printer
import TaintPolicy.Yaml.Scalar

/-!
# Block-style YAML

Writes a value in block style. A list stands at the indentation of its key; a text is plain where
it reads back as itself, a literal block where it has several lines, and quoted otherwise. A key
that is long or has several lines is marked by a question mark. Lines are never folded.
-/

namespace TaintPolicy.Yaml

/-- The way a text is written. -/
inductive Style
  | plain | singleQuoted | doubleQuoted | literal
deriving DecidableEq, Repr

/-- Needs no escape. -/
def isPrintable (c : Char) : Bool :=
  let n := c.toNat
  n = 0x0A || (0x20 ≤ n && n ≤ 0x7E) || (0xA0 ≤ n && n ≤ 0xD7FF) ||
    (0xE000 ≤ n && n ≤ 0xFFFD && n ≠ 0xFEFF) || 0x10000 ≤ n

def isBlankOrBreak (c : Char) : Bool :=
  c = ' ' || c = '\t' || isLineBreak c || c = '\x00'

def isSpace (c : Char) : Bool := c = ' '

/-- Some character is followed at once by one of another kind. -/
def hasPair (first second : Char → Bool) : List Char → Bool
  | c :: d :: cs => (first c && second d) || hasPair first second (d :: cs)
  | _ => false

def startsBlank (cs : List Char) : Bool := cs.head?.all isBlankOrBreak

/-- Characters that may not start a plain text. -/
def isIndicator (c : Char) : Bool :=
  ['#', ',', '[', ']', '{', '}', '&', '*', '!', '|', '>', '\'', '"', '%', '@', '\x60'].contains c

/-- Characters after the first that end a plain text or start a comment. -/
def hasInnerIndicator (afterBlank : Bool) : List Char → Bool
  | [] => false
  | c :: cs =>
    (c = ':' && startsBlank cs) || (c = '#' && afterBlank) ||
      hasInnerIndicator (isBlankOrBreak c) cs

/-- Would be read as a mark or a comment. -/
def hasIndicator : List Char → Bool
  | [] => false
  | c :: cs =>
    isIndicator c || ((c = '?' || c = ':' || c = '-') && startsBlank cs) ||
      ['-', '-', '-'].isPrefixOf (c :: cs) || ['.', '.', '.'].isPrefixOf (c :: cs) ||
      hasInnerIndicator (isBlankOrBreak c) cs

def isMultiline (cs : List Char) : Bool := cs.any isLineBreak

def allowsPlain (cs : List Char) : Bool :=
  !(cs.head?.any isSpace || cs.getLast?.any isSpace || isMultiline cs ||
    cs.any (fun c => !isPrintable c) || hasIndicator cs)

def allowsSingleQuotes (cs : List Char) : Bool :=
  !(hasPair isLineBreak isSpace cs || hasPair isSpace isLineBreak cs ||
    cs.any fun c => !isPrintable c)

def allowsLiteral (cs : List Char) : Bool :=
  !(cs.isEmpty || cs.getLast?.any isSpace || hasPair isSpace isLineBreak cs ||
    cs.any fun c => !isPrintable c)

/-- A plain text that reads back as a text. -/
def readsAsText (cs : List Char) : Bool :=
  Scalar.ofPlain cs = .text && !hasLeadingZero cs

def quotedStyle (cs : List Char) : Style :=
  if allowsSingleQuotes cs then .singleQuoted else .doubleQuoted

def styleOf (cs : List Char) : Style :=
  if cs.contains '\n' then (if allowsLiteral cs then .literal else .doubleQuoted)
  else if readsAsText cs && allowsPlain cs then .plain
  else quotedStyle cs

def indentation (width : Nat) : List Char := List.replicate width ' '

def hexChars (width n : Nat) : List Char :=
  (List.range width).reverse.map fun i => upperHexDigit (n >>> (4 * i) % 16)

/-- The escape of a character, after its backslash. -/
def escapeName (c : Char) : List Char :=
  match c.toNat with
  | 0x00 => ['0']
  | 0x07 => ['a']
  | 0x08 => ['b']
  | 0x09 => ['t']
  | 0x0A => ['n']
  | 0x0B => ['v']
  | 0x0C => ['f']
  | 0x0D => ['r']
  | 0x1B => ['e']
  | 0x22 => ['"']
  | 0x5C => ['\\']
  | 0x85 => ['N']
  | 0xA0 => ['_']
  | 0x2028 => ['L']
  | 0x2029 => ['P']
  | n =>
    if n ≤ 0xFF then 'x' :: hexChars 2 n
    else if n ≤ 0xFFFF then 'u' :: hexChars 4 n
    else 'U' :: hexChars 8 n

def doubleQuotedChar (c : Char) : List Char :=
  if !isPrintable c || isLineBreak c || c = '"' || c = '\\' then '\\' :: escapeName c else [c]

def doubleQuoted (cs : List Char) : List Char :=
  '"' :: cs.flatMap doubleQuotedChar ++ ['"']

/-- The inside of a single-quoted text; a line after a break is indented. -/
def singleQuotedFrom (width : Nat) (afterBreak : Bool) : List Char → List Char
  | [] => if afterBreak then indentation width else []
  | c :: cs =>
    if isLineBreak c then c :: singleQuotedFrom width true cs
    else
      (if afterBreak && c ≠ ' ' then indentation width else []) ++
        (if c = '\'' then ['\'', '\''] else [c]) ++
        singleQuotedFrom width (afterBreak && c = ' ') cs

def singleQuoted (width : Nat) (cs : List Char) : List Char :=
  '\'' :: singleQuotedFrom width false cs ++ ['\'']

/-- How a literal block treats the line breaks at its end: the last one is dropped, kept, or kept
with all before it. -/
def chomping (cs : List Char) : List Char :=
  match cs.reverse with
  | [] => ['-']
  | [c] => if isLineBreak c then ['+'] else ['-']
  | c :: d :: _ => if isLineBreak c then (if isLineBreak d then ['+'] else []) else ['-']

def literalLines (width : Nat) (atStart : Bool) : List Char → List Char
  | [] => []
  | c :: cs =>
    if isLineBreak c then c :: literalLines width true cs
    else (if atStart then indentation width else []) ++ c :: literalLines width false cs

/-- A block whose first line starts with a blank or is empty states its indentation. -/
def literal (width : Nat) (cs : List Char) : List Char :=
  '|' :: (if cs.head?.any fun c => c = ' ' || isLineBreak c then ['2'] else []) ++ chomping cs ++
    '\n' :: literalLines width true cs

/-- A text whose further lines are indented by `width`. -/
def textChars (width : Nat) (cs : List Char) : List Char :=
  match styleOf cs with
  | .plain => cs
  | .singleQuoted => singleQuoted width cs
  | .doubleQuoted => doubleQuoted cs
  | .literal => literal width cs

/-- Ends the line, unless the text ends in a line break. -/
def endLine (cs : List Char) : List Char :=
  if cs.getLast?.any isLineBreak then cs else cs ++ ['\n']

def utf8Length (cs : List Char) : Nat := cs.foldl (fun n c => n + c.utf8Size) 0

/-- Keys of at most 128 bytes on one line need no mark. -/
def isSimpleKey (cs : List Char) : Bool :=
  !isMultiline cs && utf8Length cs ≤ 128

/-- A key with the colon after it. -/
def keyChars (width : Nat) (cs : List Char) : List Char :=
  if isSimpleKey cs then textChars (width + 2) cs ++ [':']
  else '?' :: ' ' :: endLine (textChars (width + 2) cs) ++ indentation width ++ [':']

mutual

/-- What follows a mark, up to the end of the line of its last part. The collection that holds the
mark is indented by `width`; `inline` says that a collection may start on the line of the mark. -/
def valueLines (width : Nat) (inline : Bool) : Json → List Char
  | .null => [' ', 'n', 'u', 'l', 'l', '\n']
  | .bool true => [' ', 't', 'r', 'u', 'e', '\n']
  | .bool false => [' ', 'f', 'a', 'l', 's', 'e', '\n']
  | .num n => ' ' :: Json.numberChars n ++ ['\n']
  | .str s => ' ' :: endLine (textChars (width + 2) s.toList)
  | .arr [] => [' ', '[', ']', '\n']
  | .obj [] => [' ', '{', '}', '\n']
  | .arr (v :: vs) =>
    let inner := if inline then width + 2 else width
    (if inline then [' '] else '\n' :: indentation inner) ++
      '-' :: valueLines inner true v ++ itemLines inner vs
  | .obj ((k, v) :: fs) =>
    (if inline then [' '] else '\n' :: indentation (width + 2)) ++
      keyChars (width + 2) k.toList ++ valueLines (width + 2) (!isSimpleKey k.toList) v ++
      fieldLines (width + 2) fs

def itemLines (width : Nat) : List Json → List Char
  | [] => []
  | v :: vs => indentation width ++ '-' :: valueLines width true v ++ itemLines width vs

def fieldLines (width : Nat) : List (String × Json) → List Char
  | [] => []
  | (k, v) :: fs =>
    indentation width ++ keyChars width k.toList ++ valueLines width (!isSimpleKey k.toList) v ++
      fieldLines width fs

end

/-- The document of a value. -/
def printChars : Json → List Char
  | .obj (f :: fs) => fieldLines 0 (f :: fs)
  | .arr (v :: vs) => itemLines 0 (v :: vs)
  | v => (valueLines 0 true v).drop 1

def print (v : Json) : String :=
  String.ofList (printChars v)

end TaintPolicy.Yaml
