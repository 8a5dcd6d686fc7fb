import TaintPolicy.Json.Basic
import TaintPolicy.Text.Hex

/-!
# Reading JSON

`Json.read?` reads one value that takes up the whole text. A field that is written twice keeps its
first place and its last value.
-/

namespace TaintPolicy.Json

def isSpace (c : Char) : Bool :=
  c = ' ' || c = '\n' || c = '\r' || c = '\t'

def skipSpace (cs : List Char) : List Char :=
  cs.dropWhile isSpace

def hexUnit? (a b c d : Char) : Option Nat := do
  let a ← hexValue? a
  let b ← hexValue? b
  let c ← hexValue? c
  let d ← hexValue? d
  some (a * 4096 + b * 256 + c * 16 + d)

def shortEscape? (c : Char) : Option Nat :=
  if c = '"' ∨ c = '\\' ∨ c = '/' then some c.toNat
  else if c = 'b' then some 8
  else if c = 'f' then some 12
  else if c = 'n' then some 10
  else if c = 'r' then some 13
  else if c = 't' then some 9
  else none

/-- The code units up to the closing quote, and what follows it. -/
def readUnits : List Char → Option (List Nat × List Char)
  | [] => none
  | '"' :: rest => some ([], rest)
  | '\\' :: 'u' :: a :: b :: c :: d :: rest => do
    let n ← hexUnit? a b c d
    let (ns, rest) ← readUnits rest
    some (n :: ns, rest)
  | '\\' :: e :: rest => do
    let n ← shortEscape? e
    let (ns, rest) ← readUnits rest
    some (n :: ns, rest)
  | c :: rest =>
    if c.toNat < 0x20 ∨ c = '\\' then none
    else do
      let (ns, rest) ← readUnits rest
      some (c.toNat :: ns, rest)

/-- Joins surrogate halves; a half that stands alone is refused. -/
def joinUnits : List Nat → Option (List Char)
  | [] => some []
  | n :: ns =>
    if 0xD800 ≤ n ∧ n < 0xDC00 then
      match ns with
      | m :: ms =>
        if 0xDC00 ≤ m ∧ m < 0xE000 then
          (joinUnits ms).map (Char.ofNat (0x10000 + (n - 0xD800) * 0x400 + (m - 0xDC00)) :: ·)
        else none
      | [] => none
    else if 0xDC00 ≤ n ∧ n < 0xE000 then none
    else (joinUnits ns).map (Char.ofNat n :: ·)

/-- A text after its opening quote. -/
def readText (cs : List Char) : Option (String × List Char) := do
  let (ns, rest) ← readUnits cs
  let chars ← joinUnits ns
  some (String.ofList chars, rest)

def digitsValue (ds : List Char) : Nat :=
  ds.foldl (fun n d => 10 * n + (d.toNat - 48)) 0

/-- Digits after an optional point: the digits, and what follows them. -/
def readFraction : List Char → Option (List Char × List Char)
  | '.' :: rest =>
    let ds := rest.takeWhile Char.isDigit
    if ds.isEmpty then none else some (ds, rest.dropWhile Char.isDigit)
  | rest => some ([], rest)

def readSignedDigits (negative : Bool) (cs : List Char) : Option (Int × List Char) :=
  let ds := cs.takeWhile Char.isDigit
  if ds.isEmpty then none
  else
    let n : Int := digitsValue ds
    some (if negative then -n else n, cs.dropWhile Char.isDigit)

/-- An optional power of ten, and what follows it. -/
def readExponent : List Char → Option (Option Int × List Char)
  | c :: rest =>
    if c = 'e' ∨ c = 'E' then do
      let (n, rest) ←
        match rest with
        | '+' :: rest => readSignedDigits false rest
        | '-' :: rest => readSignedDigits true rest
        | rest => readSignedDigits false rest
      some (some n, rest)
    else some (none, c :: rest)
  | [] => some (none, [])

def readNumber (cs : List Char) : Option (Number × List Char) := do
  let (negative, cs) := match cs with
    | '-' :: rest => (true, rest)
    | rest => (false, rest)
  let whole := cs.takeWhile Char.isDigit
  if whole.isEmpty ∨ (whole.head? = some '0' ∧ whole.length > 1) then none
  else
    let (fraction, rest) ← readFraction (cs.dropWhile Char.isDigit)
    let (power, rest) ← readExponent rest
    let size : Int := digitsValue (whole ++ fraction)
    let value := if negative then -size else size
    if fraction.isEmpty ∧ power = none then
      if negative ∧ size = 0 then some (.real ⟨0, 0⟩, rest)
      else some (.ofLiteral value, rest)
    else some (.real ⟨value, power.getD 0 - fraction.length⟩, rest)

mutual

/-- Reads a value that starts at the first character. The fuel bounds the values read. -/
def readValue : Nat → List Char → Option (Json × List Char)
  | 0, _ => none
  | fuel + 1, cs =>
    match cs with
    | 'n' :: 'u' :: 'l' :: 'l' :: rest => some (null, rest)
    | 't' :: 'r' :: 'u' :: 'e' :: rest => some (bool true, rest)
    | 'f' :: 'a' :: 'l' :: 's' :: 'e' :: rest => some (bool false, rest)
    | '"' :: rest => (readText rest).map fun (s, rest) => (str s, rest)
    | '[' :: rest =>
      match skipSpace rest with
      | ']' :: rest => some (arr [], rest)
      | rest => (readItems fuel rest).map fun (vs, rest) => (arr vs, rest)
    | '{' :: rest =>
      match skipSpace rest with
      | '}' :: rest => some (obj [], rest)
      | rest => (readFields fuel [] rest).map fun (fs, rest) => (obj fs, rest)
    | cs => (readNumber cs).map fun (n, rest) => (num n, rest)

/-- The elements of a list up to its closing bracket. -/
def readItems : Nat → List Char → Option (List Json × List Char)
  | 0, _ => none
  | fuel + 1, cs => do
    let (v, rest) ← readValue fuel cs
    match skipSpace rest with
    | ',' :: rest => (readItems fuel (skipSpace rest)).map fun (vs, rest) => (v :: vs, rest)
    | ']' :: rest => some ([v], rest)
    | _ => none

/-- The fields of an object up to its closing brace, after those read so far. -/
def readFields : Nat → Fields Json → List Char → Option (Fields Json × List Char)
  | 0, _, _ => none
  | fuel + 1, fs, '"' :: cs => do
    let (k, rest) ← readText cs
    match skipSpace rest with
    | ':' :: rest => do
      let (v, rest) ← readValue fuel (skipSpace rest)
      match skipSpace rest with
      | ',' :: rest => readFields fuel (Fields.put k v fs) (skipSpace rest)
      | '}' :: rest => some (Fields.put k v fs, rest)
      | _ => none
    | _ => none
  | _ + 1, _, _ => none

end

def readChars? (cs : List Char) : Option Json := do
  let (v, rest) ← readValue (cs.length + 1) (skipSpace cs)
  if (skipSpace rest).isEmpty then some v else none

/-- The value that the whole text spells, if it spells one. -/
def read? (s : String) : Option Json :=
  readChars? s.toList

end TaintPolicy.Json
