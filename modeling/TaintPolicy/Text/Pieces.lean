/-!
# Pieces of a text

A text cut at every occurrence of a separator. There is always one piece more than there are
separators.
-/

namespace TaintPolicy

/-- The pieces between separators. -/
def piecesAt (separator : Char) : List Char → List (List Char)
  | [] => [[]]
  | c :: cs =>
    if c = separator then [] :: piecesAt separator cs
    else
      match piecesAt separator cs with
      | piece :: pieces => (c :: piece) :: pieces
      | [] => [[c]]

end TaintPolicy
