import ArgBinding.Text.Printable

/-! Quoted text as it stands in messages and printed values. The quotation mark is an apostrophe,
or a double quote where the text holds an apostrophe and no double quote. The mark, the backslash
and all characters that do not print are written as escapes.
-/

namespace ArgBinding.Text

/-- The apostrophe, the usual quotation mark. -/
def apostrophe : Char := '\x27'

/-- The double quote, the mark around text that holds an apostrophe. -/
def doubleQuote : Char := '\x22'

/-- The quotation mark for a text. -/
def quotationMark (cs : List Char) : Char :=
  if cs.contains apostrophe && !cs.contains doubleQuote then doubleQuote else apostrophe

/-- A number in hexadecimal, lower case, filled with zeros to a width. -/
def hexadecimal (width value : Nat) : List Char :=
  let digits := Nat.toDigits 16 value
  List.replicate (width - digits.length) '0' ++ digits

/-- The escape of a character by its code point, with as few digits as one of the three forms
allows.
-/
def codePointEscape (c : Char) : List Char :=
  if c.toNat ≤ 0xff then
    '\\' :: 'x' :: hexadecimal 2 c.toNat
  else if c.toNat ≤ 0xffff then
    '\\' :: 'u' :: hexadecimal 4 c.toNat
  else
    '\\' :: 'U' :: hexadecimal 8 c.toNat

/-- One character between two quotation marks. -/
def quotedChar (mark c : Char) : List Char :=
  if c = mark || c = '\\' then
    ['\\', c]
  else if c = '\n' then
    ['\\', 'n']
  else if c = '\r' then
    ['\\', 'r']
  else if c = '\t' then
    ['\\', 't']
  else if isPrintable c then
    [c]
  else
    codePointEscape c

/-- The characters of a text between quotation marks, with escapes. -/
def quotedChars (cs : List Char) : List Char :=
  let mark := quotationMark cs
  mark :: (cs.flatMap (quotedChar mark) ++ [mark])

/-- A text between quotation marks, with escapes. -/
def quoted (text : String) : String :=
  String.ofList (quotedChars text.toList)

end ArgBinding.Text
