import TaintPolicy.Json.Basic
import TaintPolicy.Text.Hex

/-!
# Written JSON

Two layouts of one value: `compact` puts no blank anywhere, `pretty` puts every element and field on
a line of its own, indented by two blanks a level, and writes an empty list or object as its two
brackets. Both escape a quote, a backslash and the characters below the blank, and nothing else.
-/

namespace TaintPolicy.Json

/-- The written form of one character inside quotes. -/
def escaped (c : Char) : List Char :=
  if c = '"' then ['\\', '"']
  else if c = '\\' then ['\\', '\\']
  else if c = '\x08' then ['\\', 'b']
  else if c = '\x0c' then ['\\', 'f']
  else if c = '\n' then ['\\', 'n']
  else if c = '\r' then ['\\', 'r']
  else if c = '\t' then ['\\', 't']
  else if c.toNat < 0x20 then
    ['\\', 'u', '0', '0', hexDigit (c.toNat / 16), hexDigit (c.toNat % 16)]
  else [c]

def quoted (s : String) : List Char :=
  '"' :: s.toList.flatMap escaped ++ ['"']

def numberChars : Number → List Char
  | .int i => (toString i).toList
  | .real d => (toString d.mantissa).toList ++ 'e' :: (toString d.exponent).toList

mutual

def compactChars : Json → List Char
  | null => ['n', 'u', 'l', 'l']
  | bool true => ['t', 'r', 'u', 'e']
  | bool false => ['f', 'a', 'l', 's', 'e']
  | num n => numberChars n
  | str s => quoted s
  | arr [] => ['[', ']']
  | arr (v :: vs) => '[' :: (compactChars v ++ compactItems vs)
  | obj [] => ['{', '}']
  | obj ((k, v) :: fs) => '{' :: (quoted k ++ ':' :: (compactChars v ++ compactFields fs))

def compactItems : List Json → List Char
  | [] => [']']
  | v :: vs => ',' :: (compactChars v ++ compactItems vs)

def compactFields : List (String × Json) → List Char
  | [] => ['}']
  | (k, v) :: fs => ',' :: (quoted k ++ ':' :: (compactChars v ++ compactFields fs))

end

def newline (depth : Nat) : List Char :=
  '\n' :: List.replicate (2 * depth) ' '

mutual

def prettyChars (depth : Nat) : Json → List Char
  | null => ['n', 'u', 'l', 'l']
  | bool true => ['t', 'r', 'u', 'e']
  | bool false => ['f', 'a', 'l', 's', 'e']
  | num n => numberChars n
  | str s => quoted s
  | arr [] => ['[', ']']
  | arr (v :: vs) =>
    '[' :: (newline (depth + 1) ++ prettyChars (depth + 1) v ++ prettyItems depth vs)
  | obj [] => ['{', '}']
  | obj ((k, v) :: fs) =>
    '{' :: (newline (depth + 1) ++ quoted k ++ ':' :: ' ' :: prettyChars (depth + 1) v ++
      prettyFields depth fs)

def prettyItems (depth : Nat) : List Json → List Char
  | [] => newline depth ++ [']']
  | v :: vs => ',' :: (newline (depth + 1) ++ prettyChars (depth + 1) v ++ prettyItems depth vs)

def prettyFields (depth : Nat) : List (String × Json) → List Char
  | [] => newline depth ++ ['}']
  | (k, v) :: fs =>
    ',' :: (newline (depth + 1) ++ quoted k ++ ':' :: ' ' :: prettyChars (depth + 1) v ++
      prettyFields depth fs)

end

def compact (v : Json) : String :=
  String.ofList (compactChars v)

def pretty (v : Json) : String :=
  String.ofList (prettyChars 0 v)

end TaintPolicy.Json
