import SqlTree.Text.Blank

/-!
# SqlTree — Sql — comments

The text of a comment or an optimizer hint must not hold the marks that open and close a comment.
Both marks are taken out again and again, since what is left may form a mark anew, until none is
left; then the blanks at the ends go.
-/

namespace SqlTree.Comment

/-- The text without the places, found from the left, where the two characters follow each other. -/
def dropPairs (first second : Char) : List Char → List Char
  | c :: next :: cs =>
    if c = first ∧ next = second then dropPairs first second cs
    else c :: dropPairs first second (next :: cs)
  | cs => cs

/-- The two characters follow each other somewhere. -/
def hasPair (first second : Char) : List Char → Bool
  | c :: next :: cs => (c = first && next = second) || hasPair first second (next :: cs)
  | [] | [_] => false

/-- A mark that opens or closes a comment. -/
def hasMark (cs : List Char) : Bool := hasPair '/' '*' cs || hasPair '*' '/' cs

/-- All opening marks taken out, then all closing ones. -/
def dropMarks (cs : List Char) : List Char := dropPairs '*' '/' (dropPairs '/' '*' cs)

/-- Marks taken out until none is left, in at most so many rounds. -/
def settle : (rounds : Nat) → List Char → List Char
  | 0, cs => cs
  | rounds + 1, cs => if hasMark cs then settle rounds (dropMarks cs) else cs

/-- The text that may stand in a comment.  Every round makes the text shorter, so that its length is
rounds enough. -/
def clean (text : String) : String :=
  String.ofList (Text.trim (settle text.toList.length text.toList))

end SqlTree.Comment
