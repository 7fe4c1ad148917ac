/-!
# Pieces of a text

A reader of settings takes a piece off the front of a text and hands on the text after it. Where a
character only stands between pieces, `split` gives all of them.
-/

namespace TxScope.Text

/-- A piece taken off the front of a text, and the text after it. -/
abbrev Parse (α : Type) := List Char → Option (α × List Char)

/-- Takes a character off the front. -/
def char? (c : Char) : List Char → Option (List Char)
  | d :: cs => if d = c then some cs else none
  | [] => none

/-- Takes a word off the front. -/
def word? (w : String) (cs : List Char) : Option (List Char) :=
  if w.toList.isPrefixOf cs then some (cs.drop w.length) else none

/-- The pieces between separators. There is at least one, and a piece may be empty. -/
def pieces (separator : Char) : List Char → List (List Char)
  | [] => [[]]
  | c :: cs =>
    if c = separator then [] :: pieces separator cs
    else
      match pieces separator cs with
      | [] => [[c]]
      | p :: ps => (c :: p) :: ps

def split (separator : Char) (text : String) : List String :=
  (pieces separator text.toList).map String.ofList

end TxScope.Text
