import TaintPolicy.Yaml.Lexeme

/-!
# Tokens

Cuts a YAML text into tokens. A deeper column opens a block collection and a lesser one closes it.
A scalar or a flow collection that a colon follows on its line is a key: the mark for it is put in
front of tokens that were read before the colon was seen.
-/

namespace TaintPolicy.Yaml

inductive Token
  | directive (d : Directive)
  | documentStart
  | documentEnd
  | sequenceStart
  | mappingStart
  | blockEnd
  | flowSequenceStart
  | flowSequenceEnd
  | flowMappingStart
  | flowMappingEnd
  | entry
  | flowEntry
  | key
  | value
  | reference (name : String)
  | anchor (name : String)
  | tag (handle suffix : String)
  | scalar (text : String) (plain : Bool)
deriving DecidableEq, Repr

/-- A place where a key may turn out to start. -/
structure KeyStart where
  /-- The number of tokens before it. -/
  position : Nat
  /-- Only a key may stand there. -/
  required : Bool
  mark : Mark
deriving DecidableEq, Repr

/-- A text that is read as far as `mark`. -/
structure Scan where
  rest : List Char
  mark : Mark := {}
  /-- The columns of the open block collections, innermost first. -/
  columns : List Nat := []
  keyAllowed : Bool := true
  keyStart : Option KeyStart := none
  /-- What the key start was outside each open flow collection, innermost first. -/
  outer : List (Option KeyStart) := []
  /-- The tokens read, in reverse. -/
  reversed : List Token := []
  count : Nat := 0

namespace Scan

def inFlow (s : Scan) : Bool := !s.outer.isEmpty

/-- The column of the innermost open block collection. -/
def indent (s : Scan) : Int := (s.columns.head?.map Int.ofNat).getD (-1)

def emit (t : Token) (s : Scan) : Scan :=
  { s with reversed := t :: s.reversed, count := s.count + 1 }

/-- Puts a token in front of all but the first `position` tokens. -/
def emitAt (position : Nat) (t : Token) (s : Scan) : Scan :=
  let later := s.count - position
  { s with
    reversed := s.reversed.take later ++ t :: s.reversed.drop later
    count := s.count + 1 }

/-- Goes past some characters at the start of the rest. -/
def skip (n : Nat) (s : Scan) : Scan :=
  { s with mark := s.mark.past (s.rest.take n), rest := s.rest.drop n }

/-- Blanks, comments and line breaks before a token. A line break outside flow collections allows a
key; a tab does not stand where a key may. -/
def skipGap (flow : Bool) (comment keyAllowed : Bool) (m : Mark) :
    List Char → Bool × Mark × List Char
  | [] => (keyAllowed, m, [])
  | c :: cs =>
    if isLineBreak c then skipGap flow false (keyAllowed || !flow) (m.next c) cs
    else if comment || c = '#' then skipGap flow true keyAllowed (m.next c) cs
    else if c = ' ' || (c = '\t' && (flow || !keyAllowed)) || (c = '\ufeff' && m.column = 0) then
      skipGap flow false keyAllowed (m.next c) cs
    else (keyAllowed, m, c :: cs)

/-- A key and its colon stand on one line, no more than 1024 characters apart. -/
def inReach (m : Mark) (k : KeyStart) : Bool :=
  k.mark.line = m.line && m.index ≤ k.mark.index + 1024

/-- Forgets a key start that is out of reach, which is a fault where a key is required. -/
def expire (m : Mark) : Option KeyStart → Option (Option KeyStart)
  | none => some none
  | some k => if inReach m k then some (some k) else if k.required then none else some none

/-- Closes the block collections that stand deeper than a column. -/
def closeBlocks (column : Int) (s : Scan) : Scan :=
  if s.inFlow then s
  else
    let kept := s.columns.dropWhile fun (c : Nat) => column < c
    let closed := s.columns.length - kept.length
    { s with
      columns := kept
      reversed := List.replicate closed .blockEnd ++ s.reversed
      count := s.count + closed }

/-- Opens a block collection where the column is deeper than those of the open ones. -/
def openBlock (column position : Nat) (t : Token) (s : Scan) : Scan :=
  if s.inFlow || (column : Int) ≤ s.indent then s
  else { emitAt position t s with columns := column :: s.columns }

/-- Goes to the start of the next token. -/
def toToken (s : Scan) : Option Scan := do
  let (keyAllowed, mark, rest) := skipGap s.inFlow false s.keyAllowed s.mark s.rest
  let keyStart ← expire mark s.keyStart
  let outer ← s.outer.mapM (expire mark)
  some (closeBlocks mark.column { s with keyAllowed, mark, rest, keyStart, outer })

/-- Forgets the key start, which is a fault where a key is required. -/
def dropKey (s : Scan) : Option Scan :=
  match s.keyStart with
  | some k => if k.required then none else some { s with keyStart := none }
  | none => some s

/-- Notes that a key may start here. -/
def startKey (s : Scan) : Option Scan :=
  if s.keyAllowed then do
    let s ← s.dropKey
    some { s with
      keyStart := some {
        position := s.count
        required := !s.inFlow && s.indent = (s.mark.column : Int)
        mark := s.mark } }
  else some s

/-- Closes all block collections, before a document mark, a directive or the end. -/
def leave (s : Scan) : Option Scan := do
  let s ← (closeBlocks (-1) s).dropKey
  some { s with keyAllowed := false }

def directive (s : Scan) : Option Scan := do
  let s ← s.leave
  let (d, mark, rest) ← readDirective (s.mark.next '%') (s.rest.drop 1)
  some (emit (.directive d) { s with mark, rest })

def documentMark (t : Token) (s : Scan) : Option Scan := do
  let s ← s.leave
  some (emit t (s.skip 3))

def openFlow (t : Token) (s : Scan) : Option Scan := do
  let s ← s.startKey
  some (emit t ({ s with
    outer := s.keyStart :: s.outer
    keyStart := none
    keyAllowed := true }.skip 1))

def closeFlow (t : Token) (s : Scan) : Option Scan := do
  let s ← s.dropKey
  some (emit t ({ s with
    keyStart := s.outer.head?.join
    outer := s.outer.tail
    keyAllowed := false }.skip 1))

def flowEntry (s : Scan) : Option Scan := do
  let s ← s.dropKey
  some (emit .flowEntry ({ s with keyAllowed := true }.skip 1))

/-- Opens a block collection at a mark in the block context, where a key has to be allowed. -/
def openAtMark (t : Token) (s : Scan) : Option Scan :=
  if s.inFlow then some s
  else if s.keyAllowed then some (s.openBlock s.mark.column s.count t)
  else none

def entry (s : Scan) : Option Scan := do
  let s ← s.openAtMark .sequenceStart
  let s ← s.dropKey
  some (emit .entry ({ s with keyAllowed := true }.skip 1))

def key (s : Scan) : Option Scan := do
  let s ← s.openAtMark .mappingStart
  let s ← s.dropKey
  some (emit .key ({ s with keyAllowed := !s.inFlow }.skip 1))

def value (s : Scan) : Option Scan :=
  match s.keyStart with
  | some k =>
    let s := openBlock k.mark.column k.position .mappingStart (s.emitAt k.position .key)
    some (emit .value ({ s with keyStart := none, keyAllowed := false }.skip 1))
  | none => do
    let s ← s.openAtMark .mappingStart
    some (emit .value ({ s with keyAllowed := !s.inFlow }.skip 1))

/-- An anchor or an alias, after its mark. -/
def named (t : String → Token) (s : Scan) : Option Scan := do
  let s ← s.startKey
  let (name, mark, rest) ← readAnchorName (s.skip 1).mark (s.skip 1).rest
  some (emit (t (String.ofList name)) { s with mark, rest, keyAllowed := false })

def tag (s : Scan) : Option Scan := do
  let s ← s.startKey
  let ((handle, suffix), mark, rest) ← readTag s.inFlow s.mark s.rest
  some (emit (.tag handle suffix) { s with mark, rest, keyAllowed := false })

def block (literal : Bool) (s : Scan) : Option Scan := do
  let s ← s.dropKey
  let (text, mark, rest) ← readBlock literal s.indent (s.skip 1).mark (s.skip 1).rest
  some (emit (.scalar (String.ofList text) false) { s with mark, rest, keyAllowed := true })

def quoted (single : Bool) (s : Scan) : Option Scan := do
  let s ← s.startKey
  let (text, mark, rest) ← readQuoted single .nothing .none [] (s.skip 1).mark (s.skip 1).rest
  some (emit (.scalar (String.ofList text) false) { s with mark, rest, keyAllowed := false })

def plain (s : Scan) : Option Scan := do
  let s ← s.startKey
  let ((text, gap), mark, rest) ← readPlain s.inFlow (s.indent + 1) .none [] s.mark s.rest
  some (emit (.scalar (String.ofList text) true) { s with mark, rest, keyAllowed := gap.isLines })

/-- Characters that start no plain scalar. -/
def isReserved (c : Char) : Bool :=
  ['%', '@', '\x60', '#', '|', '>', '&', '*', '!', ',', '[', ']', '{', '}', '\'', '"'].contains c

/-- Reads the token that starts with `c`. -/
def next (c : Char) (cs : List Char) (s : Scan) : Option Scan :=
  if c = '%' && s.mark.column = 0 then s.directive
  else if atDocumentMark s.mark (c :: cs) then
    s.documentMark (if c = '-' then .documentStart else .documentEnd)
  else if c = '[' then s.openFlow .flowSequenceStart
  else if c = '{' then s.openFlow .flowMappingStart
  else if c = ']' then s.closeFlow .flowSequenceEnd
  else if c = '}' then s.closeFlow .flowMappingEnd
  else if c = ',' then s.flowEntry
  else if c = '-' && atGap cs then s.entry
  else if c = '?' && (s.inFlow || atGap cs) then s.key
  else if c = ':' && (s.inFlow || atGap cs) then s.value
  else if c = '*' then s.named .reference
  else if c = '&' then s.named .anchor
  else if c = '!' then s.tag
  else if c = '|' && !s.inFlow then s.block true
  else if c = '>' && !s.inFlow then s.block false
  else if c = '\'' then s.quoted true
  else if c = '"' then s.quoted false
  else if isBlank c || isReserved c then none
  else s.plain

/-- Every token takes at least one character, so a text is read in as many steps as it is long. -/
def run : Nat → Scan → Option Scan
  | 0, _ => none
  | fuel + 1, s => do
    let s ← s.toToken
    match s.rest with
    | [] => s.leave
    | c :: cs => run fuel (← s.next c cs)

end Scan

/-- A byte order mark at the start is no part of the text. -/
def dropByteOrderMark : List Char → List Char
  | '\ufeff' :: cs => cs
  | cs => cs

/-- The tokens of a text; none where it breaks the rules for characters, indentation or keys. -/
def Token.ofText? (text : String) : Option (List Token) :=
  let cs := dropByteOrderMark text.toList
  if cs.all isAllowed then
    let cs := unifyBreaks cs
    (Scan.run (cs.length + 1) { rest := cs }).map fun s => s.reversed.reverse
  else none

end TaintPolicy.Yaml
