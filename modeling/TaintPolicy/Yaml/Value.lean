import TaintPolicy.Yaml.Document

/-!
# YAML values

Values that keep what JSON has no place for: keys of any type, infinite numbers and tags. Two keys
of one mapping are never the same.
-/

namespace TaintPolicy

/-- The nearest 64-bit binary fraction. -/
def Decimal.toFloat (d : Decimal) : Float :=
  let n := d.mantissa.natAbs
  let size : Int := (Nat.repr n).length + d.exponent
  let x :=
    if n = 0 ∨ size < -400 then 0.0
    else Float.ofScientific n (d.exponent < 0) d.exponent.natAbs
  if d.mantissa < 0 then -x else x

namespace Yaml

inductive Value
  | null
  | bool (value : Bool)
  | int (value : Int)
  | real (value : Decimal)
  | infinity (negative : Bool)
  | notNumber
  | text (value : String)
  | sequence (items : List Value)
  | mapping (entries : List (Value × Value))
  | tagged (tag : String) (value : Value)
deriving Repr, Inhabited

namespace Value

/-- The same value. Fractions are compared as 64-bit binary fractions, and the order of a mapping
does not count. -/
def same : Value → Value → Bool
  | null, null => true
  | bool a, bool b => a = b
  | int a, int b => a = b
  | real a, real b => a.toFloat == b.toFloat
  | infinity a, infinity b => a = b
  | notNumber, notNumber => true
  | text a, text b => a = b
  | sequence as, sequence bs => sameItems as bs
  | mapping es, mapping fs => es.length = fs.length && within es fs
  | tagged s a, tagged t b => s = t && same a b
  | _, _ => false
where
  sameItems : List Value → List Value → Bool
    | [], [] => true
    | a :: as, b :: bs => same a b && sameItems as bs
    | _, _ => false
  within : List (Value × Value) → List (Value × Value) → Bool
    | [], _ => true
    | (k, v) :: es, fs => fs.any (fun f => same k f.1 && same v f.2) && within es fs

/-- The value under a tag. -/
def untagged : Value → Value
  | tagged _ v => untagged v
  | v => v

/-- A text, also under a tag. -/
def text? (v : Value) : Option String :=
  match v.untagged with
  | text s => some s
  | _ => none

def flag? (v : Value) : Option Bool :=
  match v.untagged with
  | bool b => some b
  | _ => none

/-- The items of a sequence; `null` has none. -/
def items? (v : Value) : Option (List Value) :=
  match v.untagged with
  | sequence vs => some vs
  | null => some []
  | _ => none

/-- The entries of a mapping; `null` has none. -/
def entries? (v : Value) : Option (List (Value × Value)) :=
  match v.untagged with
  | mapping es => some es
  | null => some []
  | _ => none

/-- The values under the known names of a record, each at most once. Every key is a text. -/
def record? (known : List String) (v : Value) : Option (Fields Value) := do
  (← v.entries?).foldlM (fun fs e => do
    let name ← e.1.text?
    if !known.contains name then some fs
    else if (Fields.find? name fs).isSome then none
    else some (fs ++ [(name, e.2)])) []

/-- A field that may be missing, then with the given value. -/
def defaulted? {α : Type} (read : Value → Option α) (fallback : α) (name : String)
    (fs : Fields Value) : Option α :=
  match Fields.find? name fs with
  | none => some fallback
  | some v => read v

end Value

/-- The value of a scalar. An integer has to fit a 64-bit word. -/
def Scalar.value? (text : String) : Scalar → Option Value
  | .null => some .null
  | .bool b => some (.bool b)
  | .int i => if Number.fitsWord i then some (.int i) else none
  | .real d => some (.real d)
  | .infinity negative => some (.infinity negative)
  | .notNumber => some .notNumber
  | .text => some (.text text)

/-- A value under the tag of its node, if that is one of the document's own. -/
def tagValue (tag : Option String) (v : Value) : Value :=
  match localTag? tag with
  | none => v
  | some t => .tagged t v

namespace Document

def ofOption {α : Type} : Option α → Walk α
  | some a => return a
  | none => failure

/-- Adds an entry with a key that is not there yet. -/
def addEntry (read : Node → Walk Value) (es : List (Value × Value)) (e : Node × Node) :
    Walk (List (Value × Value)) := do
  let k ← read e.1
  if es.any fun f => f.1.same k then failure
  else
    let v ← read e.2
    return es ++ [(k, v)]

/-- The value of a node. -/
def value (d : Document) (depth : Nat) (n : Node) : Walk Value := do
  match ← d.resolved n with
  | .reference _ => failure
  | .scalar _ tag text plain =>
    let tag' := if (localTag? tag).isSome then none else tag
    let v ← ofOption ((Scalar.ofTagged? tag' text plain).bind (Scalar.value? text))
    return tagValue tag v
  | .sequence _ tag items =>
    match depth with
    | 0 => failure
    | depth + 1 => return tagValue tag (.sequence (← items.mapM (value d depth)))
  | .mapping _ tag entries =>
    match depth with
    | 0 => failure
    | depth + 1 =>
      let es ← entries.foldlM (addEntry (value d depth)) []
      return tagValue tag (.mapping es)

end Document

end Yaml

end TaintPolicy
