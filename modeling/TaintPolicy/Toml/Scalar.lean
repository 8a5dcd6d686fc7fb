import TaintPolicy.Json.Basic
import TaintPolicy.Text.Hex
import TaintPolicy.Timestamp
import TaintPolicy.Toml.Basic

/-!
# Texts, numbers and times in TOML

Readers for the values that have no parts. A number or a time takes up a whole word: a longest run
of letters, digits and the marks that can stand in one.
-/

namespace TaintPolicy.Toml

def isBlank (c : Char) : Bool := c = ' ' || c = '\t'

/-- May stand in a text or a comment; no line break does. -/
def isAllowed (c : Char) : Bool := c = '\t' || (0x20 ≤ c.toNat && c.toNat ≠ 0x7F)

def escapeValue? (c : Char) : Option Char :=
  match c with
  | 'b' => some '\x08'
  | 't' => some '\t'
  | 'n' => some '\n'
  | 'f' => some '\x0c'
  | 'r' => some '\r'
  | '"' => some '"'
  | '\\' => some '\\'
  | _ => none

/-- The character with the code point that the digits spell. -/
def codePoint? (digits : List Char) : Option Char := do
  let n ← digits.foldlM (fun n d => (hexValue? d).map fun v => 16 * n + v) 0
  if n.isValidChar then some (Char.ofNat n) else none

/-- A text on one line, after its opening quote. -/
def readBasic : List Char → Option (List Char × List Char)
  | [] => none
  | '"' :: rest => some ([], rest)
  | '\\' :: 'u' :: a :: b :: c :: d :: rest => do
    let e ← codePoint? [a, b, c, d]
    let (cs, rest) ← readBasic rest
    some (e :: cs, rest)
  | '\\' :: 'U' :: a :: b :: c :: d :: e :: f :: g :: h :: rest => do
    let i ← codePoint? [a, b, c, d, e, f, g, h]
    let (cs, rest) ← readBasic rest
    some (i :: cs, rest)
  | '\\' :: c :: rest => do
    let e ← escapeValue? c
    let (cs, rest) ← readBasic rest
    some (e :: cs, rest)
  | c :: rest =>
    if isAllowed c && c ≠ '\\' then (readBasic rest).map fun (cs, rest) => (c :: cs, rest) else none

/-- A text without escapes on one line, after its opening quote. -/
def readLiteral : List Char → Option (List Char × List Char)
  | [] => none
  | '\'' :: rest => some ([], rest)
  | c :: rest =>
    if isAllowed c then (readLiteral rest).map fun (cs, rest) => (c :: cs, rest) else none

def isGap (c : Char) : Bool := isBlank c || c = '\n'

/-- Nothing but blanks is left of the line. -/
def atLineEnd (cs : List Char) : Bool := (cs.dropWhile isBlank).head? = some '\n'

/-- A text on several lines, after its opening quotes. A backslash at the end of a line leaves out
the gap up to the next character. Up to two quotes may stand before the three that close it. -/
def readLines (inGap : Bool) : List Char → Option (List Char × List Char)
  | [] => none
  | '"' :: '"' :: '"' :: '"' :: '"' :: rest => some (['"', '"'], rest)
  | '"' :: '"' :: '"' :: '"' :: rest => some (['"'], rest)
  | '"' :: '"' :: '"' :: rest => some ([], rest)
  | '\\' :: 'u' :: a :: b :: c :: d :: rest => do
    let e ← codePoint? [a, b, c, d]
    let (cs, rest) ← readLines false rest
    some (e :: cs, rest)
  | '\\' :: 'U' :: a :: b :: c :: d :: e :: f :: g :: h :: rest => do
    let i ← codePoint? [a, b, c, d, e, f, g, h]
    let (cs, rest) ← readLines false rest
    some (i :: cs, rest)
  | '\\' :: d :: rest =>
    if isGap d then (if atLineEnd (d :: rest) then readLines true rest else none)
    else do
      let e ← escapeValue? d
      let (cs, rest) ← readLines false rest
      some (e :: cs, rest)
  | c :: rest =>
    if inGap && isGap c then readLines true rest
    else if (isAllowed c && c ≠ '\\') || c = '\n' then
      (readLines false rest).map fun (cs, rest) => (c :: cs, rest)
    else none

/-- A text without escapes on several lines, after its opening quotes. -/
def readLiteralLines : List Char → Option (List Char × List Char)
  | [] => none
  | '\'' :: '\'' :: '\'' :: '\'' :: '\'' :: rest => some (['\'', '\''], rest)
  | '\'' :: '\'' :: '\'' :: '\'' :: rest => some (['\''], rest)
  | '\'' :: '\'' :: '\'' :: rest => some ([], rest)
  | c :: rest =>
    if isAllowed c || c = '\n' then
      (readLiteralLines rest).map fun (cs, rest) => (c :: cs, rest)
    else none

/-- A line break right after the opening quotes is left out. -/
def dropBreak : List Char → List Char
  | '\n' :: cs => cs
  | cs => cs

/-- A quoted text on one line. -/
def readQuoted : List Char → Option (List Char × List Char)
  | '"' :: cs => readBasic cs
  | '\'' :: cs => readLiteral cs
  | _ => none

def readText : List Char → Option (List Char × List Char)
  | '"' :: '"' :: '"' :: cs => readLines false (dropBreak cs)
  | '\'' :: '\'' :: '\'' :: cs => readLiteralLines (dropBreak cs)
  | cs => readQuoted cs

/-- Digits without the low lines that separate them. -/
def ungroup? (isDigit : Char → Bool) (afterDigit : Bool) : List Char → Option (List Char)
  | [] => if afterDigit then some [] else none
  | c :: cs =>
    if isDigit c then (ungroup? isDigit true cs).map (c :: ·)
    else if c = '_' && afterDigit then ungroup? isDigit false cs
    else none

def valueIn (base : Nat) (ds : List Char) : Nat :=
  ds.foldl (fun n d => base * n + (hexValue? d).getD 0) 0

def digitOf (base : Nat) (c : Char) : Bool := (hexValue? c).any fun v => v < base

def dropSign : List Char → List Char
  | '+' :: cs => cs
  | '-' :: cs => cs
  | cs => cs

def isWholeNumber (negative : Bool) (cs : List Char) : Bool :=
  match ungroup? Char.isDigit false cs with
  | none => false
  | some ds =>
    (ds.head? ≠ some '0' || ds.length = 1) &&
      valueIn 10 ds < 1 <<< 63 + (if negative then 1 else 0)

/-- An integer of 64 bits, in one of four bases. -/
def isInteger : List Char → Bool
  | '0' :: 'x' :: cs => ((ungroup? (digitOf 16) false cs).map (valueIn 16)).any (· < 1 <<< 63)
  | '0' :: 'o' :: cs => ((ungroup? (digitOf 8) false cs).map (valueIn 8)).any (· < 1 <<< 63)
  | '0' :: 'b' :: cs => ((ungroup? (digitOf 2) false cs).map (valueIn 2)).any (· < 1 <<< 63)
  | cs => isWholeNumber (cs.head? = some '-') (dropSign cs)

def isExponentMark (c : Char) : Bool := c = 'e' || c = 'E'

/-- A decimal with a point or a power of ten. Of the numbers that are too large only the negative
ones are accepted. -/
def isFraction (cs : List Char) : Bool :=
  let negative : Bool := cs.head? = some '-'
  let cs := dropSign cs
  if cs = ['i', 'n', 'f'] ∨ cs = ['n', 'a', 'n'] then true
  else
    let mantissa := cs.takeWhile fun c => !isExponentMark c
    let power := cs.drop (mantissa.length + 1)
    let whole := mantissa.takeWhile (· ≠ '.')
    let places := mantissa.drop (whole.length + 1)
    let hasPoint := mantissa.contains '.'
    let hasPower := cs.any isExponentMark
    match ungroup? Char.isDigit false whole,
        (if hasPoint then ungroup? Char.isDigit false places else some []),
        (if hasPower then ungroup? Char.isDigit false (dropSign power) else some []) with
    | some ds, some fs, some es =>
      let exponent : Int := valueIn 10 es
      let exponent := if power.head? = some '-' then -exponent else exponent
      (hasPoint || hasPower) && (ds.head? ≠ some '0' || ds.length = 1) &&
        (negative || Decimal.isFinite (valueIn 10 (ds ++ fs)) (exponent - fs.length))
    | _, _, _ => false

/-- Reads `width` digits that spell a number between two bounds. -/
def readCount? (width low high : Nat) (cs : List Char) : Option (Nat × List Char) :=
  let ds := cs.take width
  let n := valueIn 10 ds
  if ds.length = width && ds.all Char.isDigit && low ≤ n && n ≤ high then some (n, cs.drop width)
  else none

def readMark? (mark : Char) : List Char → Option (List Char)
  | c :: cs => if c = mark then some cs else none
  | [] => none

/-- Reads a date and gives what follows it. -/
def readDate? (cs : List Char) : Option (List Char) := do
  let (year, cs) ← readCount? 4 0 9999 cs
  let (month, cs) ← readCount? 2 1 12 (← readMark? '-' cs)
  let (_, cs) ← readCount? 2 1 (Timestamp.daysInMonth year month) (← readMark? '-' cs)
  some cs

/-- Reads a time of day and gives what follows it. -/
def readClock? (cs : List Char) : Option (List Char) := do
  let (_, cs) ← readCount? 2 0 23 cs
  let (_, cs) ← readCount? 2 0 59 (← readMark? ':' cs)
  let (_, cs) ← readCount? 2 0 60 (← readMark? ':' cs)
  match cs with
  | '.' :: rest =>
    if rest.head?.any Char.isDigit then some (rest.dropWhile Char.isDigit) else none
  | _ => some cs

/-- An offset from universal time, or nothing. -/
def isZone (cs : List Char) : Bool :=
  match cs with
  | [] => true
  | ['Z'] => true
  | ['z'] => true
  | c :: cs =>
    (c = '+' || c = '-') && (do
      let (_, cs) ← readCount? 2 0 23 cs
      let (_, cs) ← readCount? 2 0 59 (← readMark? ':' cs)
      some cs) = some []

def isClockWithZone (cs : List Char) : Bool := (readClock? cs).any isZone

def isTime (cs : List Char) : Bool :=
  readClock? cs = some [] ||
    match readDate? cs with
    | some [] => true
    | some (c :: cs) => (c = 'T' || c = 't') && isClockWithZone cs
    | none => false

/-- May stand in a number, a time or a truth value. -/
def isWordChar (c : Char) : Bool :=
  c.isAlphanum || c = '+' || c = '-' || c = '.' || c = '_' || c = ':'

def wordValue? (word : List Char) : Option Value :=
  if word = ['t', 'r', 'u', 'e'] then some (.bool true)
  else if word = ['f', 'a', 'l', 's', 'e'] then some (.bool false)
  else if isInteger word || isFraction word then some (.number (String.ofList word))
  else if isTime word then some (.time (String.ofList word))
  else none

/-- A truth value, a number or a time. A blank may separate a date from a time of day. -/
def readWord (cs : List Char) : Option (Value × List Char) :=
  let word := cs.takeWhile isWordChar
  let rest := cs.dropWhile isWordChar
  let later := (rest.drop 1).takeWhile isWordChar
  if readDate? word = some [] && rest.head? = some ' ' && isClockWithZone later then
    some (.time (String.ofList (word ++ ' ' :: later)), (rest.drop 1).dropWhile isWordChar)
  else (wordValue? word).map fun v => (v, rest)

end TaintPolicy.Toml
