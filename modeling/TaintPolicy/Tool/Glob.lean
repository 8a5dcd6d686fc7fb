import TaintPolicy.Fault

/-!
# Globs

Patterns for tool names: `?` for any character, `*` for any characters, `**` for any path
components, and character ranges in brackets. A range that is not closed, and a `**` that is not a
whole path component, are refused with the position of the fault.
-/

namespace TaintPolicy.Glob

inductive Specifier
  | single (c : Char)
  | range (low high : Char)
deriving DecidableEq, Repr

inductive Token
  | char (c : Char)
  | anyChar
  | anySequence
  | anyComponents
  | within (specifiers : List Specifier)
  | except (specifiers : List Specifier)
deriving DecidableEq, Repr

def Specifier.accepts (c : Char) : Specifier → Bool
  | single d => c = d
  | range low high => low ≤ c && c ≤ high

def specifiers : List Char → List Specifier
  | low :: '-' :: high :: rest => .range low high :: specifiers rest
  | c :: rest => .single c :: specifiers rest
  | [] => []

/-- Where the reader of a glob stands. -/
inductive Phase
  | text
  /-- After `count` stars that follow the character `before`. -/
  | stars (count : Nat) (before : Option Char)
  /-- After the bracket at position `start`. -/
  | bracket (start : Nat)
  /-- Inside a range, after its reversed content. -/
  | inRange (start : Nat) (negated : Bool) (content : List Char)

/-- Checks a run of stars that ends at position `pos`, before the character `next`. -/
def checkStars (pos count : Nat) (before next : Option Char) : Except (Nat × GlobDefect) Unit :=
  if count > 2 then .error (pos - count + 2, .tooManyStars)
  else if count = 2 then
    if before = none ∨ before = some '/' then
      if next = none ∨ next = some '/' then .ok () else .error (pos, .starsInsideName)
    else .error (pos - count - 1, .starsInsideName)
  else .ok ()

def pushComponents (done : List Token) : List Token :=
  if done.length > 1 ∧ done.head? = some .anyComponents then done else .anyComponents :: done

def pushStars (count : Nat) (done : List Token) : List Token :=
  if count = 2 then pushComponents done else .anySequence :: done

/-- The phase and the tokens after a character that belongs to no run of stars and no range. -/
def plain (pos : Nat) (before : Option Char) (c : Char) (done : List Token) :
    Phase × List Token :=
  if c = '?' then (.text, .anyChar :: done)
  else if c = '*' then (.stars 1 before, done)
  else if c = '[' then (.bracket pos, done)
  else (.text, .char c :: done)

/-- Reads the rest of a glob from position `pos`, after the reversed tokens `done`. -/
def readFrom (pos : Nat) (before : Option Char) (phase : Phase) (done : List Token) :
    List Char → Except (Nat × GlobDefect) (List Token)
  | [] =>
    match phase with
    | .text => .ok done.reverse
    | .stars count opening =>
      (checkStars pos count opening none).map fun _ => (pushStars count done).reverse
    | .bracket start => .error (start, .badRange)
    | .inRange start _ _ => .error (start, .badRange)
  | c :: cs =>
    match phase with
    | .text =>
      let next := plain pos before c done
      readFrom (pos + 1) (some c) next.1 next.2 cs
    | .stars count opening =>
      if c = '*' then readFrom (pos + 1) (some c) (.stars (count + 1) opening) done cs
      else
        match checkStars pos count opening (some c) with
        | .error e => .error e
        | .ok _ =>
          let done := pushStars count done
          if count = 2 then readFrom (pos + 1) (some c) .text done cs
          else
            let next := plain pos before c done
            readFrom (pos + 1) (some c) next.1 next.2 cs
    | .bracket start =>
      if c = '!' then readFrom (pos + 1) (some c) (.inRange start true []) done cs
      else readFrom (pos + 1) (some c) (.inRange start false [c]) done cs
    | .inRange start negated content =>
      if c = ']' ∧ content ≠ [] then
        let specs := specifiers content.reverse
        let token := if negated then Token.except specs else .within specs
        readFrom (pos + 1) (some c) .text (token :: done) cs
      else readFrom (pos + 1) (some c) (.inRange start negated (c :: content)) done cs

def tokens? (pattern : String) : Except Fault (List Token) :=
  match readFrom 0 none .text [] pattern.toList with
  | .ok tokens => .ok tokens
  | .error (pos, defect) => .error (.badGlob pattern pos defect)

/-- How an attempt to match ends: `exhausted` where the text ran out, so that no shorter rest of it
can match either. -/
inductive Outcome
  | matched | mismatch | exhausted
deriving DecidableEq, Repr

/-- Tries `rest` after every character at which it may start, and at the end. -/
def trySuffixes (starts : Char → Bool) (rest : List Char → Outcome) : List Char → Outcome
  | [] => rest []
  | c :: cs =>
    if starts c then
      match rest cs with
      | .mismatch => trySuffixes starts rest cs
      | outcome => outcome
    else trySuffixes starts rest cs

def tryAll (starts : Char → Bool) (rest : List Char → Outcome) (cs : List Char) : Outcome :=
  match rest cs with
  | .mismatch => trySuffixes starts rest cs
  | outcome => outcome

def consume (accepts : Char → Bool) (rest : List Char → Outcome) : List Char → Outcome
  | [] => .exhausted
  | c :: cs => if accepts c then rest cs else .mismatch

def matchFrom : List Token → List Char → Outcome
  | [], [] => .matched
  | [], _ :: _ => .mismatch
  | .anySequence :: ts, cs => tryAll (fun _ => true) (matchFrom ts) cs
  | .anyComponents :: ts, cs => tryAll (fun c => c = '/') (matchFrom ts) cs
  | .char d :: ts, cs => consume (fun c => c = d) (matchFrom ts) cs
  | .anyChar :: ts, cs => consume (fun _ => true) (matchFrom ts) cs
  | .within specs :: ts, cs =>
    consume (fun c => specs.any (Specifier.accepts c)) (matchFrom ts) cs
  | .except specs :: ts, cs =>
    consume (fun c => !specs.any (Specifier.accepts c)) (matchFrom ts) cs

def accepts (tokens : List Token) (name : String) : Bool :=
  matchFrom tokens name.toList = .matched

end TaintPolicy.Glob
