import ArgBinding.Text.Blank
import ArgBinding.Text.Digit

/-! The characters of numerals. A numeral may use the digits of any script and any white space at
its ends, so it is brought into standard form before it is read: ASCII digits and plain blanks.
-/

namespace ArgBinding.Numeral

open ArgBinding.Text

/-- A digit of a numeral in standard form. -/
def isDigit (c : Char) : Bool :=
  '0' ≤ c && c ≤ '9'

/-- The value of a digit of a numeral in standard form. -/
def digitValue (c : Char) : Nat :=
  c.toNat - 0x30

/-- The number that a row of digits stands for. -/
def natOfDigits (digits : List Char) : Nat :=
  digits.foldl (fun value c => 10 * value + digitValue c) 0

/-- The decimal digits of a number. -/
def digitsOfNat (value : Nat) : List Char :=
  Nat.toDigits 10 value

/-- The ASCII digit of the same value as a digit of any script. -/
def standardDigit? (c : Char) : Option Char :=
  (digitValue? c).map fun value => Char.ofNat (0x30 + value)

/-- The character that stands for all characters that no numeral has. -/
def foreignChar : Char := '?'

/-- A character in standard form. ASCII characters stay, other blanks become a space and other
digits the ASCII digit.
-/
def standardChar (c : Char) : Char :=
  if c.toNat < 0x7f then
    c
  else if isBlank c then
    ' '
  else
    (standardDigit? c).getD foreignChar

/-- The blanks around a numeral in standard form: the space and the controls from tab to carriage
return.
-/
def isMargin (c : Char) : Bool :=
  c == ' ' || (0x9 ≤ c.toNat && c.toNat ≤ 0xd)

/-- The sign in front of a numeral, `true` for minus, and what follows it. -/
def splitSign : List Char → Bool × List Char
  | '-' :: rest => (true, rest)
  | '+' :: rest => (false, rest)
  | rest => (false, rest)

/-- The sign as it is written: only a minus is. -/
def signChars (negative : Bool) : List Char :=
  if negative then ['-'] else []

end ArgBinding.Numeral
