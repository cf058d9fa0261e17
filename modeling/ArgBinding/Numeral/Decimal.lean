import ArgBinding.Numeral.Scientific

/-! Decimal numbers of any precision. Reading and writing keep all digits and the exponent, so
`1.10` and `1.1` are different decimals.
-/

namespace ArgBinding.Numeral

open ArgBinding.Text

/-- A decimal number. A finite one is `coefficient * 10 ^ exponent` with its sign. A number that
is none carries a payload, which is not shown when it is zero.
-/
inductive Decimal where
  | nan (negative signaling : Bool) (payload : Nat)
  | infinite (negative : Bool)
  | finite (negative : Bool) (coefficient : Nat) (exponent : Int)
  deriving DecidableEq, Repr

/-- Why a text is not read as a decimal. -/
inductive DecimalError where
  /-- The text is no decimal. -/
  | malformed
  /-- The exponent is out of range. -/
  | outOfRange
  deriving DecidableEq, Repr

namespace Decimal

/-- The greatest exponent of a decimal, taken at its first digit. -/
def maxExponent : Int := 999999999999999999

/-- The least exponent of a decimal, taken at its last digit. -/
def minExponent : Int := -1999999999999999997

/-- The characters of a decimal in standard form. Underscores are left out wherever they stand.
-/
def standardForm (cs : List Char) : List Char :=
  ((trimChars cs).filter (· != '_')).map fun c => (standardDigit? c).getD c

/-- The payload behind a word, which is made of digits only. -/
def payload? (word : String) (cs : List Char) : Option Nat :=
  let size := word.length
  if (cs.take size).map Char.toLower == word.toList && (cs.drop size).all isDigit then
    some (natOfDigits (cs.drop size))
  else
    none

/-- A finite decimal, if its exponent is in range. -/
def ofScientific (negative : Bool) (number : Scientific) : Except DecimalError Decimal :=
  let place :=
    if number.coefficient = 0 then
      number.exponent
    else
      number.exponent + (digitsOfNat number.coefficient).length - 1
  if maxExponent < place || number.exponent < minExponent then
    .error .outOfRange
  else
    .ok (finite negative number.coefficient number.exponent)

/-- The decimal that an unsigned numeral in standard form stands for. -/
def ofUnsigned (negative : Bool) (cs : List Char) : Except DecimalError Decimal :=
  let word := String.ofList (cs.map Char.toLower)
  if word == "inf" || word == "infinity" then
    .ok (infinite negative)
  else
    match payload? "nan" cs, payload? "snan" cs, Scientific.ofChars? cs with
    | some payload, _, _ => .ok (nan negative false payload)
    | none, some payload, _ => .ok (nan negative true payload)
    | none, none, some number => ofScientific negative number
    | none, none, none => .error .malformed

/-- The decimal that a text stands for. -/
def ofText (text : String) : Except DecimalError Decimal :=
  let (negative, body) := splitSign (standardForm text.toList)
  ofUnsigned negative body

/-- The characters of a decimal. A finite one is written in full where its exponent is not
positive and its first digit at most six places behind the point, others with one digit before the
point and an exponent.
-/
def toChars : Decimal → List Char
  | nan negative signaling payload =>
      signChars negative ++ (if signaling then "sNaN" else "NaN").toList
        ++ if payload = 0 then [] else digitsOfNat payload
  | infinite negative => signChars negative ++ "Infinity".toList
  | finite negative coefficient exponent =>
      let digits := digitsOfNat coefficient
      let place := digits.length + exponent
      let magnitude :=
        if exponent ≤ 0 && -6 < place then
          pointed digits place
        else
          pointed digits 1 ++ 'E' :: signedDigits (place - 1)
      signChars negative ++ magnitude

/-- A decimal with all its digits. -/
def toText (number : Decimal) : String :=
  String.ofList number.toChars

end Decimal

end ArgBinding.Numeral
