import TaintPolicy.Toml.Scalar
import TaintPolicy.Toml.Table

/-!
# Reading TOML

`Toml.read?` reads a document as the fields of its outermost table. Any offence against the grammar
makes the whole document unreadable.
-/

namespace TaintPolicy.Toml

def skipBlank (cs : List Char) : List Char := cs.dropWhile isBlank

/-- A comment up to the end of its line. -/
def skipComment? (cs : List Char) : Option (List Char) :=
  match cs with
  | '#' :: rest =>
    let rest := rest.dropWhile isAllowed
    if rest.head?.all (· = '\n') then some rest else none
  | _ => some cs

/-- The rest of a line on which only a comment may stand. -/
def readLineEnd? (cs : List Char) : Option (List Char) := do
  match ← skipComment? (skipBlank cs) with
  | [] => some []
  | '\n' :: rest => some rest
  | _ => none

/-- Blanks, comments and line breaks, at most `fuel` lines of them. -/
def skipLines? : Nat → List Char → Option (List Char)
  | 0, _ => none
  | fuel + 1, cs => do
    match ← skipComment? (skipBlank cs) with
    | '\n' :: rest => skipLines? fuel rest
    | rest => some rest

def isKeyChar (c : Char) : Bool := c.isAlphanum || c = '_' || c = '-'

def readKeyPart? (cs : List Char) : Option (String × List Char) :=
  match readQuoted cs with
  | some (name, rest) => some (String.ofList name, rest)
  | none =>
    let name := cs.takeWhile isKeyChar
    if name.isEmpty then none else some (String.ofList name, cs.dropWhile isKeyChar)

/-- A key has fewer parts than this, and values are nested less deep. -/
def limit : Nat := 80

/-- A key of at most `fuel` parts between points. -/
def readKeyParts? : Nat → List Char → Option (List String × List Char)
  | 0, _ => none
  | fuel + 1, cs => do
    let (name, rest) ← readKeyPart? (skipBlank cs)
    match skipBlank rest with
    | '.' :: rest =>
      let (names, rest) ← readKeyParts? fuel rest
      some (name :: names, rest)
    | rest => some ([name], rest)

/-- A key without its last part, and its last part. -/
def readKey? (cs : List Char) : Option ((List String × String) × List Char) := do
  let (names, rest) ← readKeyParts? (limit - 1) cs
  let last ← names.getLast?
  some ((names.dropLast, last), rest)

mutual

/-- A value that may hold `depth` values in each other. -/
def readValue? (depth : Nat) : Nat → List Char → Option (Value × List Char)
  | 0, _ => none
  | fuel + 1, cs =>
    match cs with
    | '"' :: _ => (readText cs).map fun (s, rest) => (.text (String.ofList s), rest)
    | '\'' :: _ => (readText cs).map fun (s, rest) => (.text (String.ofList s), rest)
    | '[' :: rest =>
      if depth = 0 then none
      else do
        let (vs, rest) ← readItems? (depth - 1) fuel rest
        some (.array vs, rest)
    | '\x7b' :: rest =>
      if depth = 0 then none
      else
        match skipBlank rest with
        | '\x7d' :: rest => some (.table [], rest)
        | rest => do
          let (entries, rest) ← readPairs? (depth - 1) [] fuel rest
          some (.table (Item.toValue.fieldsOf entries), rest)
    | _ => readWord cs

/-- The items of an array and its closing bracket. A comma may follow the last item. -/
def readItems? (depth : Nat) : Nat → List Char → Option (List Value × List Char)
  | 0, _ => none
  | fuel + 1, cs => do
    match ← skipLines? fuel cs with
    | ']' :: rest => some ([], rest)
    | rest =>
      let (v, rest) ← readValue? depth fuel rest
      match ← skipLines? fuel rest with
      | ',' :: rest =>
        let (vs, rest) ← readItems? depth fuel rest
        some (v :: vs, rest)
      | ']' :: rest => some ([v], rest)
      | _ => none

/-- The pairs of an inline table and its closing brace, all on one line. -/
def readPairs? (depth : Nat) (entries : Fields Item) :
    Nat → List Char → Option (Fields Item × List Char)
  | 0, _ => none
  | fuel + 1, cs => do
    let ((names, name), rest) ← readKey? cs
    match rest with
    | '=' :: rest =>
      let (v, rest) ← readValue? depth fuel (skipBlank rest)
      let entries ← define names name v .header entries
      match skipBlank rest with
      | ',' :: rest => readPairs? depth entries fuel rest
      | '\x7d' :: rest => some (entries, rest)
      | _ => none
    | _ => none

end

/-- Defines a key and its value in the table at a path. -/
def readPair? (path : List String) (root : Fields Item) (cs : List Char) :
    Option (Fields Item × List Char) := do
  let ((names, name), rest) ← readKey? cs
  match rest with
  | '=' :: rest =>
    let (v, rest) ← readValue? (limit - 1) (rest.length + 1) (skipBlank rest)
    let change : Change := fun _ entries => define names name v .header entries
    let root ← changeAt false change path .header root
    some (root, rest)
  | _ => none

/-- The lines of a document from the table at `path` on. -/
def readTables? (path : List String) (root : Fields Item) :
    Nat → List Char → Option (Fields Item)
  | 0, _ => none
  | fuel + 1, cs =>
    match skipBlank cs with
    | [] => some root
    | '\n' :: rest => readTables? path root fuel rest
    | '#' :: rest => do readTables? path root fuel (← readLineEnd? ('#' :: rest))
    | '[' :: '[' :: rest => do
      let ((names, name), rest) ← readKey? rest
      match rest with
      | ']' :: ']' :: rest =>
        let root ← changeAt false (addTable name) names .header root
        readTables? (names ++ [name]) root fuel (← readLineEnd? rest)
      | _ => none
    | '[' :: rest => do
      let ((names, name), rest) ← readKey? rest
      match rest with
      | ']' :: rest =>
        let root ← changeAt false (openTable name) names .header root
        readTables? (names ++ [name]) root fuel (← readLineEnd? rest)
      | _ => none
    | rest => do
      let (root, rest) ← readPair? path root rest
      readTables? path root fuel (← readLineEnd? rest)

/-- A line break may be written with a carriage return before it. -/
def unifyBreaks : List Char → List Char
  | '\r' :: '\n' :: cs => '\n' :: unifyBreaks cs
  | c :: cs => c :: unifyBreaks cs
  | [] => []

def dropByteOrderMark : List Char → List Char
  | '\ufeff' :: cs => cs
  | cs => cs

def read? (text : String) : Option (Fields Value) :=
  let cs := unifyBreaks (dropByteOrderMark text.toList)
  (readTables? [] [] (cs.length + 1) cs).map Item.toValue.fieldsOf

end TaintPolicy.Toml
