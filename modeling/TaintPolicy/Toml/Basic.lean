import TaintPolicy.Fields

/-!
# TOML values

What a TOML document holds. Numbers and times keep their spelling, which has been checked.
-/

namespace TaintPolicy.Toml

inductive Value
  | text (value : String)
  | bool (value : Bool)
  | number (spelling : String)
  | time (spelling : String)
  | array (items : List Value)
  | table (fields : List (String × Value))
deriving Repr, Inhabited

namespace Value

def text? : Value → Option String
  | text s => some s
  | _ => none

def flag? : Value → Option Bool
  | bool b => some b
  | _ => none

end Value

end TaintPolicy.Toml
