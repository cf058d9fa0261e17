import ArgBinding.Text.Blank
import ArgBinding.Text.Pieces

/-! Values joined by a separator. Empty pieces at the end stand for nothing, so a text may end in
separators, while a text without a separator is always one value.
-/

namespace ArgBinding.Text

/-- The error of cutting a text at an empty separator. -/
structure EmptySeparator where
  deriving DecidableEq, Repr

/-- The text of the error. -/
def EmptySeparator.message (_ : EmptySeparator) : String :=
  "empty separator"

/-- The pieces without the empty ones at their end. A single piece stays. -/
def dropTrailingEmpty (pieces : List (List Char)) : List (List Char) :=
  if 1 < pieces.length then
    (pieces.reverse.dropWhile (·.isEmpty)).reverse
  else
    pieces

/-- The trimmed values in a text whose separator is not empty. -/
def separatedValues (separator text : String) : List String :=
  (dropTrailingEmpty (cut separator.toList text.toList)).map fun piece =>
    String.ofList (trimChars piece)

/-- The trimmed values in a text. -/
def separate (separator text : String) : Except EmptySeparator (List String) :=
  if separator = "" then .error {} else .ok (separatedValues separator text)

end ArgBinding.Text
