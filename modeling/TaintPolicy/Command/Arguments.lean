/-!
# Command-line arguments

Words into flags, options with values, and operands. A value may follow its option as the next word
or after an equals sign; a word that starts with a hyphen is never the value of the option before
it. After two hyphens every word is an operand.
-/

namespace TaintPolicy.Command

/-- What an option takes. -/
inductive Takes
  | nothing
  | text
  /-- A text that is not empty. -/
  | path
  | oneOf (words : List String)
deriving DecidableEq, Repr

structure Switch where
  name : String
  letter : Option Char := none
  takes : Takes := .text
  repeats : Bool := false
deriving DecidableEq, Repr

/-- The options of a command and the number of its operands. -/
structure Shape where
  switches : List Switch
  /-- The flag for the version is known. -/
  hasVersion : Bool := false
  operands : Nat := 0
  /-- The first operand names a command, and what follows belongs to that command. -/
  leads : Bool := false
deriving Repr

/-- Why arguments are not read to their end. -/
inductive Stop
  | usage | help | version
deriving DecidableEq, Repr

structure Arguments where
  /-- The options in the order in which they were given, with their values. -/
  given : List (String × String) := []
  operands : List String := []
deriving DecidableEq, Repr

namespace Arguments

def has (a : Arguments) (name : String) : Bool := a.given.any fun g => g.1 = name

/-- The values of an option, in order. -/
def values (a : Arguments) (name : String) : List String :=
  a.given.filterMap fun g => if g.1 = name then some g.2 else none

def value? (a : Arguments) (name : String) : Option String := (a.values name).head?

end Arguments

def Takes.accepts (value : String) : Takes → Bool
  | nothing => value = ""
  | text => true
  | path => value ≠ ""
  | oneOf words => words.contains value

/-- Notes an option; one that does not repeat is given once. -/
def give (a : Arguments) (s : Switch) (value : String) : Except Stop Arguments :=
  if (a.has s.name && !s.repeats) || !s.takes.accepts value then .error .usage
  else .ok { a with given := a.given ++ [(s.name, value)] }

def isHyphenated (word : String) : Bool := word.toList.head? = some '-' && word ≠ "-"

/-- The value in the word after an option. -/
def giveNext (a : Arguments) (s : Switch) : List String → Except Stop (Arguments × List String)
  | [] => .error .usage
  | word :: rest =>
    if isHyphenated word then .error .usage else (give a s word).map fun a => (a, rest)

/-- A name and what follows an equals sign. -/
def splitEquals (cs : List Char) : String × Option String :=
  let name := cs.takeWhile (· ≠ '=')
  (String.ofList name,
    match cs.drop name.length with
    | [] => none
    | _ :: value => some (String.ofList value))

def readLong (shape : Shape) (a : Arguments) (word : List Char) (rest : List String) :
    Except Stop (Arguments × List String) :=
  match splitEquals word with
  | ("help", none) => .error .help
  | (name, value) =>
    if shape.hasVersion ∧ name = "version" ∧ value = none then .error .version
    else
      match shape.switches.find? fun s => s.name = name, value with
      | none, _ => .error .usage
      | some s, none =>
        if s.takes = .nothing then (give a s "").map (·, rest) else giveNext a s rest
      | some s, some value =>
        if s.takes = .nothing then .error .usage else (give a s value).map (·, rest)

/-- Letters after a hyphen. The first that takes a value takes the letters after it, or else the
next word. -/
def readLetters (shape : Shape) (a : Arguments) (rest : List String) :
    List Char → Except Stop (Arguments × List String)
  | [] => .ok (a, rest)
  | c :: cs =>
    if c = 'h' then .error .help
    else if shape.hasVersion ∧ c = 'V' then .error .version
    else
      match shape.switches.find? fun s => s.letter = some c with
      | none => .error .usage
      | some s =>
        if s.takes = .nothing then
          match give a s "" with
          | .error stop => .error stop
          | .ok a => readLetters shape a rest cs
        else
          match cs with
          | [] => giveNext a s rest
          | '=' :: value => (give a s (String.ofList value)).map (·, rest)
          | value => (give a s (String.ofList value)).map (·, rest)

def addOperands (shape : Shape) (a : Arguments) (words : List String) : Except Stop Arguments :=
  let operands := a.operands ++ words
  if operands.length ≤ shape.operands ∧ operands.all (· ≠ "") then .ok { a with operands }
  else .error .usage

/-- Reads at most `fuel` words; what is left over belongs to the command that the last operand
names. -/
def readWords (shape : Shape) :
    Nat → Arguments → List String → Except Stop (Arguments × List String)
  | 0, _, _ => .error .usage
  | _ + 1, a, [] => .ok (a, [])
  | fuel + 1, a, word :: rest =>
    if word = "--" then
      if shape.leads && !rest.isEmpty then .error .usage
      else (addOperands shape a rest).map (·, [])
    else
      match word.toList with
      | '-' :: '-' :: cs => do
        let (a, rest) ← readLong shape a cs rest
        readWords shape fuel a rest
      | '-' :: c :: cs => do
        let (a, rest) ← readLetters shape a rest (c :: cs)
        readWords shape fuel a rest
      | _ => do
        let a ← addOperands shape a [word]
        if shape.leads then .ok (a, rest) else readWords shape fuel a rest

def Arguments.read (shape : Shape) (words : List String) :
    Except Stop (Arguments × List String) :=
  readWords shape (words.length + 1) {} words

end TaintPolicy.Command
