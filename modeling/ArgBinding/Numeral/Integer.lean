import ArgBinding.Numeral.Standard
import ArgBinding.Text.Pieces

/-! Reading whole numbers: an optional sign and digits, with single underscores between digits and
blanks at both ends.
-/

namespace ArgBinding.Numeral

open ArgBinding.Text

/-- Why a text is not read as a whole number. -/
inductive IntegerError where
  /-- The text is no whole number. -/
  | malformed
  /-- The number has more digits than are converted. -/
  | tooLong (digits : Nat)
  deriving DecidableEq, Repr

/-- The most digits of a whole number that is converted. -/
def maxDigits : Nat := 4300

/-- The whole number that a text stands for. Its digits are counted before what follows them is
looked at.
-/
def integerOfChars (cs : List Char) : Except IntegerError Int :=
  let (negative, body) := splitSign ((cs.map standardChar).dropWhile isMargin)
  let isDigitOrUnderscore := fun c => isDigit c || c == '_'
  let groups := cut ['_'] (body.takeWhile isDigitOrUnderscore)
  let digits := groups.flatten
  if groups.any (·.isEmpty) then
    .error .malformed
  else if maxDigits < digits.length then
    .error (.tooLong digits.length)
  else if (body.dropWhile isDigitOrUnderscore).all isMargin then
    let magnitude := (natOfDigits digits : Int)
    .ok (if negative then -magnitude else magnitude)
  else
    .error .malformed

/-- The whole number that a text stands for. -/
def readInteger (text : String) : Except IntegerError Int :=
  integerOfChars text.toList

end ArgBinding.Numeral
