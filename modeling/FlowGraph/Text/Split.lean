/-!
# Splitting text

A text is cut at every separator.  `n` separators leave `n + 1` pieces, some of them empty; joined
again at the separators they give the text back.
-/

namespace FlowGraph.Text

/-- The pieces of a text between its separators. -/
def split (isSeparator : Char → Bool) : List Char → List (List Char)
  | [] => [[]]
  | c :: rest =>
    if isSeparator c then [] :: split isSeparator rest
    else
      match split isSeparator rest with
      | [] => [[c]]
      | piece :: pieces => (c :: piece) :: pieces

/-- The non-empty pieces of a text. -/
def words (isSeparator : Char → Bool) (cs : List Char) : List (List Char) :=
  (split isSeparator cs).filter fun piece => !piece.isEmpty

end FlowGraph.Text
