import TaintPolicy.Json.Basic
import TaintPolicy.Text.Hex

/-!
# Plain scalars

What an unquoted YAML scalar means: nothing, a truth value, a number, or its own text. A decimal
numeral with a leading zero is a text. An integer may be wider than a machine word.
-/

namespace TaintPolicy.Yaml

inductive Scalar
  | null
  | bool (value : Bool)
  | int (value : Int)
  | real (value : Decimal)
  | infinity (negative : Bool)
  | notNumber
  | text
deriving DecidableEq, Repr

def isLineBreak (c : Char) : Bool :=
  c = '\n' || c = '\r' || c = '\x85' || c = '\u2028' || c = '\u2029'

def spellsNull (cs : List Char) : Bool :=
  cs = ['n', 'u', 'l', 'l'] || cs = ['N', 'u', 'l', 'l'] || cs = ['N', 'U', 'L', 'L'] || cs = ['~']

def boolOf? (cs : List Char) : Option Bool :=
  if cs = ['t', 'r', 'u', 'e'] ∨ cs = ['T', 'r', 'u', 'e'] ∨ cs = ['T', 'R', 'U', 'E'] then
    some true
  else if cs = ['f', 'a', 'l', 's', 'e'] ∨ cs = ['F', 'a', 'l', 's', 'e'] ∨
      cs = ['F', 'A', 'L', 'S', 'E'] then
    some false
  else none

def dropSign : List Char → List Char
  | '+' :: cs => cs
  | '-' :: cs => cs
  | cs => cs

/-- Several digits of which the first is a zero. -/
def hasLeadingZero (cs : List Char) : Bool :=
  match dropSign cs with
  | '0' :: d :: ds => (d :: ds).all Char.isDigit
  | _ => false

def numeralAfter (base value : Nat) : List Char → Option Nat
  | [] => some value
  | c :: cs =>
    match hexValue? c with
    | some d => if d < base then numeralAfter base (base * value + d) cs else none
    | none => none

/-- The value of a nonempty list of digits. -/
def numeral? (base : Nat) : List Char → Option Nat
  | [] => none
  | c :: cs => numeralAfter base 0 (c :: cs)

/-- The size of an integer without its sign, in one of four bases. -/
def magnitude? : List Char → Option Nat
  | '0' :: 'x' :: cs => numeral? 16 cs
  | '0' :: 'o' :: cs => numeral? 8 cs
  | '0' :: 'b' :: cs => numeral? 2 cs
  | cs => numeral? 10 cs

/-- An integer of at most 128 bits. -/
def integer? (cs : List Char) : Option Int :=
  if hasLeadingZero cs then none
  else
    match cs with
    | '-' :: rest =>
      (magnitude? rest).bind fun n => if n ≤ 1 <<< 127 then some (-(n : Int)) else none
    | '+' :: rest => (magnitude? rest).bind fun n => if n < 1 <<< 128 then some n else none
    | rest => (magnitude? rest).bind fun n => if n < 1 <<< 128 then some n else none

def isSigned : List Char → Bool
  | '+' :: _ => true
  | '-' :: _ => true
  | _ => false

/-- The power of ten after a decimal fraction. -/
def power? : List Char → Option Int
  | [] => some 0
  | e :: cs =>
    if e = 'e' ∨ e = 'E' then
      match cs with
      | '-' :: rest => (numeral? 10 rest).map fun n => -(n : Int)
      | '+' :: rest => (numeral? 10 rest).map fun n => (n : Int)
      | rest => (numeral? 10 rest).map fun n => (n : Int)
    else none

/-- Reads digits with at most one point among them and a power of ten, all without a sign. -/
def unsignedDecimal? (cs : List Char) : Option (Nat × Int) := do
  let whole := cs.takeWhile Char.isDigit
  let rest := cs.dropWhile Char.isDigit
  let (fraction, rest) :=
    match rest with
    | '.' :: rest => (rest.takeWhile Char.isDigit, rest.dropWhile Char.isDigit)
    | rest => ([], rest)
  let digits ← numeral? 10 (whole ++ fraction)
  let power ← power? rest
  some (digits, power - fraction.length)

/-- A number with a point, a power of ten or more digits than an integer may have. -/
def decimal? (cs : List Char) : Option Decimal :=
  let (negative, rest) :=
    match cs with
    | '-' :: rest => (true, rest)
    | '+' :: rest => (false, if isSigned rest then [] else rest)
    | rest => (false, rest)
  (unsignedDecimal? rest).bind fun (n, exponent) =>
    if Decimal.isFinite n exponent then some ⟨if negative then -(n : Int) else n, exponent⟩
    else none

def spellsInfinity (cs : List Char) : Bool :=
  cs = ['.', 'i', 'n', 'f'] || cs = ['.', 'I', 'n', 'f'] || cs = ['.', 'I', 'N', 'F']

def spellsNotNumber (cs : List Char) : Bool :=
  cs = ['.', 'n', 'a', 'n'] || cs = ['.', 'N', 'a', 'N'] || cs = ['.', 'N', 'A', 'N']

/-- A number that is no integer. -/
def fractional? (cs : List Char) : Option Scalar :=
  if spellsInfinity (dropSign cs) then some (.infinity (cs.head? = some '-'))
  else if spellsNotNumber cs then some .notNumber
  else (decimal? cs).map .real

/-- The meaning of a plain scalar. -/
def Scalar.ofPlain (cs : List Char) : Scalar :=
  if cs.isEmpty || spellsNull cs then .null
  else
    match boolOf? cs with
    | some b => .bool b
    | none =>
      match integer? cs with
      | some i => .int i
      | none => if hasLeadingZero cs then .text else (fractional? cs).getD .text

end TaintPolicy.Yaml
