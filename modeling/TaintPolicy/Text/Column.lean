/-!
# Text columns

Padding a text to a column of a given width, counted in characters. A text that is wider than its
column is written whole.
-/

namespace TaintPolicy

def blanks (n : Nat) : String :=
  String.ofList (List.replicate n ' ')

/-- Blanks after the text. -/
def padRight (width : Nat) (s : String) : String :=
  s ++ blanks (width - s.length)

/-- Blanks before the text. -/
def padLeft (width : Nat) (s : String) : String :=
  blanks (width - s.length) ++ s

/-- Blanks on both sides, the odd one after the text. -/
def padCenter (width : Nat) (s : String) : String :=
  let room := width - s.length
  blanks (room / 2) ++ s ++ blanks (room - room / 2)

/-- The first `n` characters. -/
def clip (n : Nat) (s : String) : String :=
  String.ofList (s.toList.take n)

def dashes (n : Nat) : String :=
  String.ofList (List.replicate n '-')

end TaintPolicy
