import TaintPolicy.Yaml.Mark

/-!
# Scalars and names in a text

Readers for the parts of a YAML text that are longer than one mark: quoted, plain and literal
scalars, anchors, tags and directives. Each gives what it read, the position after it, and the
rest.
-/

namespace TaintPolicy.Yaml

/-- The part of an escape that a quoted text waits for. -/
inductive Awaited
  | nothing
  /-- The character after a backslash. -/
  | name
  /-- More hexadecimal digits. -/
  | digits (count value : Nat)
  /-- The second of two apostrophes. -/
  | apostrophe
deriving DecidableEq, Repr

def escapeValue? (c : Char) : Option Char :=
  match c with
  | '0' => some '\x00'
  | 'a' => some '\x07'
  | 'b' => some '\x08'
  | 't' => some '\t'
  | '\t' => some '\t'
  | 'n' => some '\n'
  | 'v' => some '\x0b'
  | 'f' => some '\x0c'
  | 'r' => some '\r'
  | 'e' => some '\x1b'
  | ' ' => some ' '
  | '"' => some '"'
  | '/' => some '/'
  | '\\' => some '\\'
  | 'N' => some '\x85'
  | '_' => some '\xa0'
  | 'L' => some '\u2028'
  | 'P' => some '\u2029'
  | _ => none

def escapeDigits? (c : Char) : Option Nat :=
  match c with
  | 'x' => some 2
  | 'u' => some 4
  | 'U' => some 8
  | _ => none

/-- A code point that is no surrogate. -/
def codePoint? (n : Nat) : Option Char :=
  if n.isValidChar then some (Char.ofNat n) else none

/-- The inside of a quoted text and its closing quote; `done` is reversed. -/
def readQuoted (single : Bool) (awaited : Awaited) (gap : Gap) (done : List Char) (m : Mark) :
    List Char → Option (List Char × Mark × List Char)
  | [] =>
    match awaited with
    | .apostrophe => some (done.reverse, m, [])
    | _ => none
  | c :: cs =>
    match awaited with
    | .apostrophe =>
      if c = '\'' then readQuoted single .nothing .none (c :: done) (m.next c) cs
      else some (done.reverse, m, c :: cs)
    | .digits count value =>
      match hexValue? c with
      | none => none
      | some d =>
        let value := 16 * value + d
        if count ≤ 1 then
          match codePoint? value with
          | some e => readQuoted single .nothing .none (e :: done) (m.next c) cs
          | none => none
        else readQuoted single (.digits (count - 1) value) gap done (m.next c) cs
    | .name =>
      if isLineBreak c then readQuoted single .nothing (.lines [] []) done (m.next c) cs
      else
        match escapeValue? c, escapeDigits? c with
        | some e, _ => readQuoted single .nothing .none (e :: done) (m.next c) cs
        | none, some count => readQuoted single (.digits count 0) .none done (m.next c) cs
        | none, none => none
    | .nothing =>
      if isBlank c then readQuoted single .nothing (gap.addBlank c) done (m.next c) cs
      else if isLineBreak c then readQuoted single .nothing (gap.addBreak c) done (m.next c) cs
      else if atDocumentMark m (c :: cs) then none
      else
        let done := gap.text.reverse ++ done
        if single && c = '\'' then readQuoted single .apostrophe .none done (m.next c) cs
        else if !single && c = '"' then some (done.reverse, m.next c, cs)
        else if !single && c = '\\' then readQuoted single .name .none done (m.next c) cs
        else readQuoted single .nothing .none (c :: done) (m.next c) cs

def endsFlowScalar (c : Char) : Bool :=
  c = ',' || c = '[' || c = ']' || c = '{' || c = '}'

/-- A plain text from its first character on, in a flow collection or in a block indented by less
than `indent`. The gap that is left tells whether the text ended with its line. -/
def readPlain (flow : Bool) (indent : Int) (gap : Gap) (done : List Char) (m : Mark) :
    List Char → Option ((List Char × Gap) × Mark × List Char)
  | [] => some ((done.reverse, gap), m, [])
  | c :: cs =>
    if isBlank c then
      if gap.isLines && m.column < indent && c = '\t' then none
      else readPlain flow indent (gap.addBlank c) done (m.next c) cs
    else if isLineBreak c then readPlain flow indent (gap.addBreak c) done (m.next c) cs
    else if !gap.isNone &&
        ((!flow && m.column < indent) || atDocumentMark m (c :: cs) || c = '#') then
      some ((done.reverse, gap), m, c :: cs)
    else if flow && c = ':' && cs.head?.any fun d => d = '?' || endsFlowScalar d then none
    else if (c = ':' && atGap cs) || (flow && endsFlowScalar c) then
      some ((done.reverse, gap), m, c :: cs)
    else readPlain flow indent .none (c :: (gap.text.reverse ++ done)) (m.next c) cs

/-- What a block does with the line breaks at its end. -/
inductive Chomp
  | strip | clip | keep
deriving DecidableEq, Repr

/-- The marks after `|` or `>`: chomping and an indentation, in either order. -/
def readBlockMarks : List Char → Option ((Chomp × Nat) × List Char)
  | '0' :: _ => none
  | '+' :: '0' :: _ => none
  | '-' :: '0' :: _ => none
  | '+' :: c :: cs =>
    if c.isDigit then some ((.keep, c.toNat - 48), cs) else some ((.keep, 0), c :: cs)
  | '-' :: c :: cs =>
    if c.isDigit then some ((.strip, c.toNat - 48), cs) else some ((.strip, 0), c :: cs)
  | ['+'] => some ((.keep, 0), [])
  | ['-'] => some ((.strip, 0), [])
  | c :: cs =>
    if c.isDigit then
      match cs with
      | '+' :: rest => some ((.keep, c.toNat - 48), rest)
      | '-' :: rest => some ((.strip, c.toNat - 48), rest)
      | rest => some ((.clip, c.toNat - 48), rest)
    else some ((.clip, 0), c :: cs)
  | [] => some ((.clip, 0), [])

/-- The lines of a block read so far. -/
structure BlockState where
  /-- The indentation of the block, zero until it is known. -/
  indent : Nat
  deepest : Nat := 0
  /-- Inside a line of the block. -/
  inLine : Bool := false
  /-- The line before started with a blank. -/
  afterBlank : Bool := false
  /-- The break after the last line. -/
  lineBreak : List Char := []
  /-- Breaks of empty lines after it, reversed. -/
  empties : List Char := []
  done : List Char := []

namespace BlockState

/-- Starts a line with the character `c`. -/
def startLine (literal : Bool) (c : Char) (b : BlockState) : BlockState :=
  let folds := !literal && b.lineBreak = ['\n'] && !b.afterBlank && !isBlank c
  let joint :=
    if folds then (if b.empties.isEmpty then [' '] else b.empties.reverse)
    else b.lineBreak ++ b.empties.reverse
  { b with
    inLine := true
    afterBlank := isBlank c
    lineBreak := []
    empties := []
    done := c :: (joint.reverse ++ b.done) }

def text (chomp : Chomp) (b : BlockState) : List Char :=
  match chomp with
  | .strip => b.done.reverse
  | .clip => b.done.reverse ++ b.lineBreak
  | .keep => b.done.reverse ++ b.lineBreak ++ b.empties.reverse

end BlockState

/-- The lines of a block that belongs to a collection indented by `parent`. -/
def readBlockLines (literal : Bool) (chomp : Chomp) (parent : Int) (b : BlockState) (m : Mark) :
    List Char → Option (List Char × Mark × List Char)
  | [] => some (b.text chomp, m, [])
  | c :: cs =>
    if b.inLine then
      if isLineBreak c then
        readBlockLines literal chomp parent { b with inLine := false, lineBreak := [c] }
          (m.next c) cs
      else readBlockLines literal chomp parent { b with done := c :: b.done } (m.next c) cs
    else
      let open_ := b.indent = 0 || m.column < b.indent
      if open_ && c = ' ' then readBlockLines literal chomp parent b (m.next c) cs
      else if open_ && c = '\t' then none
      else
        let deepest := max b.deepest m.column
        if isLineBreak c then
          readBlockLines literal chomp parent { b with deepest, empties := c :: b.empties }
            (m.next c) cs
        else
          let indent :=
            if b.indent = 0 then max (max deepest (parent + 1).toNat) 1 else b.indent
          if m.column = indent then
            readBlockLines literal chomp parent (BlockState.startLine literal c { b with indent })
              (m.next c) cs
          else some (b.text chomp, m, c :: cs)

/-- A comment up to the end of its line. -/
def skipComment (cs : List Char) : List Char :=
  match cs with
  | '#' :: _ => cs.dropWhile fun c => !isLineBreak c
  | _ => cs

/-- The rest of a line on which only a comment may stand, with its break. -/
def readLineEnd (m : Mark) (cs : List Char) : Option (Mark × List Char) :=
  let rest := skipComment (cs.dropWhile isBlank)
  let m := m.past (cs.take (cs.length - rest.length))
  match rest with
  | [] => some (m, [])
  | c :: rest => if isLineBreak c then some (m.next c, rest) else none

/-- A block scalar after `|` or `>`. -/
def readBlock (literal : Bool) (parent : Int) (m : Mark) (cs : List Char) :
    Option (List Char × Mark × List Char) := do
  let ((chomp, increment), rest) ← readBlockMarks cs
  let m := m.past (cs.take (cs.length - rest.length))
  let (m, rest) ← readLineEnd m rest
  let indent := if increment = 0 then 0 else (max parent 0).toNat + increment
  readBlockLines literal chomp parent { indent } m rest

/-- The name of an anchor or an alias. -/
def readAnchorName (m : Mark) (cs : List Char) : Option (List Char × Mark × List Char) :=
  let name := cs.takeWhile isWordChar
  let rest := cs.dropWhile isWordChar
  let ends := atGap rest ||
    rest.head?.any fun c => ['?', ':', ',', ']', '}', '%', '@', '\x60'].contains c
  if name.isEmpty || !ends then none else some (name, m.past name, rest)

def isUriChar (verbatim : Bool) (c : Char) : Bool :=
  isWordChar c || (verbatim && [',', '[', ']'].contains c) ||
    ";/?:@&=+$.%!~*'()".toList.contains c

/-- The bytes of a percent-encoded text; characters that are not encoded stand for themselves. -/
def decodeUri : List Char → Option (List UInt8)
  | [] => some []
  | ['%'] => none
  | ['%', _] => none
  | '%' :: a :: b :: cs => do
    let a ← hexValue? a
    let b ← hexValue? b
    let rest ← decodeUri cs
    some (UInt8.ofNat (16 * a + b) :: rest)
  | c :: cs => (decodeUri cs).map fun rest => c.toString.toUTF8.toList ++ rest

def uriText? (cs : List Char) : Option String := do
  let bytes ← decodeUri cs
  String.fromUTF8? ⟨bytes.toArray⟩

def readUri (verbatim : Bool) (m : Mark) (cs : List Char) : Option (String × Mark × List Char) := do
  let name := cs.takeWhile (isUriChar verbatim)
  let text ← uriText? name
  some (text, m.past name, cs.dropWhile (isUriChar verbatim))

/-- The handle of a tag: an exclamation mark, or a word between two of them. What only looks like a
handle is read as the start of the rest of the tag. -/
def splitHandle : List Char → Option (List Char × List Char)
  | '!' :: cs =>
    let name := cs.takeWhile isWordChar
    match cs.dropWhile isWordChar with
    | '!' :: rest => some ('!' :: name ++ ['!'], rest)
    | _ => some (['!'], cs)
  | _ => none

/-- A tag as a handle and the rest. The single exclamation mark is a tag without a handle. -/
def readTag (flow : Bool) (m : Mark) (cs : List Char) :
    Option ((String × String) × Mark × List Char) := do
  let ((handle, suffix), m, rest) ←
    match cs with
    | '!' :: '<' :: rest => do
      let (suffix, m, rest) ← readUri true (m.past ['!', '<']) rest
      match rest with
      | '>' :: rest => if suffix = "" then none else some (("", suffix), m.next '>', rest)
      | _ => none
    | cs => do
      let (handle, rest) ← splitHandle cs
      let (suffix, m, rest) ← readUri false (m.past handle) rest
      if suffix ≠ "" then some ((String.ofList handle, suffix), m, rest)
      else if handle = ['!'] then some (("", "!"), m, rest)
      else none
  if atGap rest || (flow && rest.head? = some ',') then some ((handle, suffix), m, rest) else none

inductive Directive
  | version (major minor : Nat)
  | tag (handle lead : String)
deriving DecidableEq, Repr

def readVersionPart (m : Mark) (cs : List Char) : Option (Nat × Mark × List Char) :=
  let ds := cs.takeWhile Char.isDigit
  if ds.length > 9 then none
  else (numeral? 10 ds).map fun n => (n, m.past ds, cs.dropWhile Char.isDigit)

def skipBlanks (m : Mark) (cs : List Char) : Mark × List Char :=
  (m.past (cs.takeWhile isBlank), cs.dropWhile isBlank)

/-- The handle that a directive declares. -/
def readDeclaredHandle (m : Mark) (cs : List Char) : Option (List Char × Mark × List Char) := do
  let (handle, rest) ← splitHandle cs
  if handle = ['!'] ∧ rest.head?.any isWordChar then none
  else some (handle, m.past handle, rest)

/-- A directive after its percent sign, with the end of its line. -/
def readDirective (m : Mark) (cs : List Char) : Option (Directive × Mark × List Char) := do
  let name := cs.takeWhile isWordChar
  let rest := cs.dropWhile isWordChar
  if !atGap rest then none
  else
    let (m, rest) := skipBlanks (m.past name) rest
    let (directive, m, rest) ←
      if name = ['Y', 'A', 'M', 'L'] then do
        let (major, m, rest) ← readVersionPart m rest
        match rest with
        | '.' :: rest =>
          let (minor, m, rest) ← readVersionPart (m.next '.') rest
          some (Directive.version major minor, m, rest)
        | _ => none
      else if name = ['T', 'A', 'G'] then do
        let (handle, m, rest) ← readDeclaredHandle m rest
        if !rest.head?.any isBlank then none
        else
          let (m, rest) := skipBlanks m rest
          let (lead, m, rest) ← readUri true m rest
          if lead = "" || !atGap rest then none
          else some (Directive.tag (String.ofList handle) lead, m, rest)
      else none
    let (m, rest) ← readLineEnd m rest
    some (directive, m, rest)

end TaintPolicy.Yaml
