import ArgBinding.Numeral.Standard

/-! Decimal numerals with an optional fraction and an optional exponent, in standard form. -/

namespace ArgBinding.Numeral

/-- The number `coefficient * 10 ^ exponent`. -/
structure Scientific where
  coefficient : Nat
  exponent : Int
  deriving DecidableEq, Repr

/-- The exponent part of a numeral, which must reach to its end. Without one the exponent is zero.
-/
def exponentOfChars? : List Char → Option Int
  | [] => some 0
  | c :: rest =>
      let (negative, digits) := splitSign rest
      if c.toLower == 'e' && !digits.isEmpty && digits.all isDigit then
        let magnitude := (natOfDigits digits : Int)
        some (if negative then -magnitude else magnitude)
      else
        none

/-- The fraction digits after a point and what follows them. Without a point there are none. -/
def splitFraction : List Char → List Char × List Char
  | '.' :: rest => (rest.takeWhile isDigit, rest.dropWhile isDigit)
  | rest => ([], rest)

/-- The number that an unsigned numeral stands for. It has a digit before or after the point. -/
def Scientific.ofChars? (cs : List Char) : Option Scientific :=
  let whole := cs.takeWhile isDigit
  let (fraction, rest) := splitFraction (cs.dropWhile isDigit)
  if whole.isEmpty && fraction.isEmpty then
    none
  else
    (exponentOfChars? rest).map fun exponent =>
      ⟨natOfDigits (whole ++ fraction), exponent - fraction.length⟩

/-- A decimal exponent with its sign. -/
def signedDigits (exponent : Int) : List Char :=
  (if exponent < 0 then '-' else '+') :: digitsOfNat exponent.natAbs

/-- Digits with a point after the first `place` of them, filled with zeros on either side where
the point lies outside of them.
-/
def pointed (digits : List Char) (place : Int) : List Char :=
  if place ≤ 0 then
    '0' :: '.' :: (List.replicate place.natAbs '0' ++ digits)
  else if digits.length ≤ place.toNat then
    digits ++ List.replicate (place.toNat - digits.length) '0'
  else
    digits.take place.toNat ++ '.' :: digits.drop place.toNat

end ArgBinding.Numeral
