import TaintPolicy.Fields

/-!
# JSON values

Values with the fields of an object in the order in which they were written. A number is an integer
when its literal has neither a point nor an exponent and fits a 64-bit word, signed or not; every
other number is kept as an exact decimal.
-/

namespace TaintPolicy

/-- The number `mantissa * 10 ^ exponent`. -/
structure Decimal where
  mantissa : Int
  exponent : Int
deriving DecidableEq, Repr, Inhabited

/-- Small enough for a 64-bit binary fraction: rounds to less than the 1024th power of two. -/
def Decimal.isFinite (mantissa : Nat) (exponent : Int) : Bool :=
  if mantissa = 0 then true
  else
    let size : Int := (Nat.repr mantissa).length + exponent
    if size < 300 then true
    else if 320 < size then false
    else
      let limit : Nat := 1 <<< 1024 - 1 <<< 970
      mantissa * Nat.pow 10 exponent.toNat < limit * Nat.pow 10 (-exponent).toNat

inductive Number
  | int (value : Int)
  | real (value : Decimal)
deriving DecidableEq, Repr, Inhabited

inductive Json
  | null
  | bool (value : Bool)
  | num (value : Number)
  | str (value : String)
  | arr (items : List Json)
  | obj (fields : List (String × Json))
deriving Repr, Inhabited

namespace Number

/-- Fits a signed or an unsigned 64-bit word. -/
def fitsWord (i : Int) : Bool :=
  decide (Int64.minValue.toInt ≤ i ∧ i < UInt64.size)

/-- An integer literal: an exact decimal where it does not fit a word. -/
def ofLiteral (i : Int) : Number :=
  if fitsWord i then int i else real ⟨i, 0⟩

end Number

namespace Json

def isNull : Json → Bool
  | null => true
  | _ => false

def isObject : Json → Bool
  | obj _ => true
  | _ => false

def text? : Json → Option String
  | str s => some s
  | _ => none

def items? : Json → Option (List Json)
  | arr vs => some vs
  | _ => none

def fields? : Json → Option (Fields Json)
  | obj fs => some fs
  | _ => none

/-- An unsigned 64-bit integer; a number with a point or an exponent is none. -/
def word? : Json → Option UInt64
  | num (.int i) => if 0 ≤ i ∧ i < UInt64.size then some (UInt64.ofNat i.toNat) else none
  | _ => none

def ofWord (n : UInt64) : Json :=
  num (.int n.toNat)

/-- The value of a field; none where the value is no object. -/
def get? (v : Json) (name : String) : Option Json :=
  match v with
  | obj fs => Fields.find? name fs
  | _ => none

def ofTexts (ss : List String) : Json :=
  arr (ss.map str)

@[simp] theorem word?_ofWord (n : UInt64) : (ofWord n).word? = some n := by
  have h : 0 ≤ (n.toNat : Int) ∧ (n.toNat : Int) < UInt64.size :=
    ⟨Int.natCast_nonneg _, Int.ofNat_lt.mpr n.toNat_lt_size⟩
  simp only [ofWord, word?, if_pos h, Int.toNat_natCast, UInt64.ofNat_toNat]

@[simp] theorem get?_obj (fs : Fields Json) (name : String) :
    (obj fs).get? name = Fields.find? name fs := rfl

@[simp] theorem text?_str (s : String) : (str s).text? = some s := rfl

@[simp] theorem isNull_ofWord (n : UInt64) : (ofWord n).isNull = false := rfl

end Json

end TaintPolicy
