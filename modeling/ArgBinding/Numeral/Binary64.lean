import ArgBinding.Numeral.Scientific

/-! Binary floating point numbers of 64 bits. A numeral is rounded to the nearest number, a tie to
the even significand. A number is written with the fewest digits that are rounded back to it.
-/

namespace ArgBinding.Numeral

open ArgBinding.Text

/-- A floating point number. A finite one is `significand * 2 ^ exponent` with its sign, where the
significand is below `2 ^ 53` and the exponent as small as that and the least exponent allow.
-/
inductive Binary64 where
  | nan
  | infinite (negative : Bool)
  | finite (negative : Bool) (significand : Nat) (exponent : Int)
  deriving DecidableEq, Repr

namespace Binary64

/-- The least exponent of a finite number. -/
def minExponent : Int := -1074

/-- The greatest exponent of a finite number. -/
def maxExponent : Int := 971

/-- The bits of a significand. -/
def precision : Nat := 53

/-- One as a multiple of the least positive number. -/
def unitsInOne : Nat := Nat.pow 2 minExponent.natAbs

/-- A quotient rounded to the nearest whole number, a tie to the even one. -/
def roundQuotient (numerator denominator : Nat) : Nat :=
  let floor := numerator / denominator
  let twice := 2 * (numerator % denominator)
  if twice < denominator then
    floor
  else if denominator < twice then
    floor + 1
  else
    floor + floor % 2

/-- A quotient times a power of a base, as a numerator and a denominator. -/
def scaled (base numerator denominator : Nat) (power : Int) : Nat × Nat :=
  if 0 ≤ power then
    (numerator * Nat.pow base power.toNat, denominator)
  else
    (numerator, denominator * Nat.pow base power.natAbs)

/-- The exponent of the numbers around a positive quotient: the greatest power of two below it has
the leading bit of the significand.
-/
def exponentAround (numerator denominator : Nat) : Int :=
  let estimate : Int := (Nat.log2 numerator : Int) - Nat.log2 denominator
  let (n, d) := scaled 2 numerator denominator (-estimate)
  let leading := if n < d then estimate - 1 else estimate
  max minExponent (leading - (precision - 1 : Nat))

/-- The floating point number nearest to a quotient. -/
def ofQuotient (negative : Bool) (numerator denominator : Nat) : Binary64 :=
  if numerator = 0 then
    finite negative 0 minExponent
  else
    let exponent := exponentAround numerator denominator
    let (n, d) := scaled 2 numerator denominator (-exponent)
    let rounded := roundQuotient n d
    let (significand, exponent) :=
      if rounded = Nat.pow 2 precision then
        (Nat.pow 2 (precision - 1), exponent + 1)
      else
        (rounded, exponent)
    if maxExponent < exponent then
      infinite negative
    else
      finite negative significand exponent

/-- The floating point number nearest to a decimal number. Numbers far out of range are decided by
the place of their first digit alone.
-/
def ofScientific (negative : Bool) (number : Scientific) : Binary64 :=
  let place := (digitsOfNat number.coefficient).length + number.exponent
  if number.coefficient = 0 || place < -400 then
    finite negative 0 minExponent
  else if 400 < place then
    infinite negative
  else
    let (numerator, denominator) := scaled 10 number.coefficient 1 number.exponent
    ofQuotient negative numerator denominator

-----------------------------------------------------------------------------------------
-- Reading
-----------------------------------------------------------------------------------------

/-- The characters without the underscores in them, each of which stands between two digits. The
first argument tells whether a digit stands last in what came before.
-/
def withoutUnderscores? (afterDigit : Bool) : List Char → Option (List Char)
  | [] => some []
  | '_' :: rest =>
      if afterDigit && (rest.head?.map isDigit).getD false then
        withoutUnderscores? false rest
      else
        none
  | c :: rest => (withoutUnderscores? (isDigit c) rest).map (c :: ·)

/-- The floating point number that an unsigned numeral in standard form stands for. -/
def ofUnsigned? (negative : Bool) (cs : List Char) : Option Binary64 :=
  let word := String.ofList (cs.map Char.toLower)
  if word == "inf" || word == "infinity" then
    some (infinite negative)
  else if word == "nan" then
    some nan
  else
    (Scientific.ofChars? cs).map (ofScientific negative)

/-- The floating point number that a text stands for. -/
def ofText? (text : String) : Option Binary64 := do
  let plain ← withoutUnderscores? false (trimWith isMargin (text.toList.map standardChar))
  let (negative, body) := splitSign plain
  ofUnsigned? negative body

-----------------------------------------------------------------------------------------
-- Writing
-----------------------------------------------------------------------------------------

/-- The place of the first digit of a positive quotient, counted from the point: one for the
numbers from one to ten.
-/
def leadingPlace (numerator denominator : Nat) : Int :=
  if denominator ≤ numerator then
    (digitsOfNat (numerator / denominator)).length
  else
    let reciprocal := (denominator + numerator - 1) / numerator
    1 - ((digitsOfNat (reciprocal - 1)).length : Int)

/-- The quotients that are rounded to a finite number: their least and greatest value, over a
common denominator, and whether these two belong to them.
-/
structure Interval where
  low : Nat
  value : Nat
  high : Nat
  denominator : Nat
  closed : Bool

/-- The interval of a positive finite number. Below a power of two the next number is only half as
far away.
-/
def interval (significand : Nat) (exponent : Int) : Interval :=
  let leastLeading := Nat.pow 2 (precision - 1)
  let below := if significand = leastLeading && minExponent < exponent then 1 else 2
  let (unit, denominator) := scaled 2 1 4 exponent
  {
    low := (4 * significand - below) * unit
    value := 4 * significand * unit
    high := (4 * significand + 2) * unit
    denominator := denominator
    closed := significand % 2 == 0
  }

/-- Whether a count of units lies in the interval, given the unit as a quotient. -/
def Interval.holds (range : Interval) (count unit parts : Nat) : Bool :=
  let point := count * unit * range.denominator
  if range.closed then
    range.low * parts ≤ point && point ≤ range.high * parts
  else
    range.low * parts < point && point < range.high * parts

/-- The multiple of a power of ten in the interval that is nearest to its number, if there is one.
Only the two neighbours of the number have to be looked at.
-/
def Interval.nearest? (range : Interval) (power : Int) : Option Nat :=
  let (unit, parts) := scaled 10 1 1 power
  let floor := range.value * parts / (range.denominator * unit)
  let twice := 2 * (range.value * parts % (range.denominator * unit))
  match range.holds floor unit parts, range.holds (floor + 1) unit parts with
  | true, true =>
      if twice < range.denominator * unit then
        some floor
      else if range.denominator * unit < twice then
        some (floor + 1)
      else
        some (floor + floor % 2)
  | true, false => some floor
  | false, true => some (floor + 1)
  | false, false => none

/-- The digits without the zeros at their end. -/
def trimZeros (digits : List Char) : List Char :=
  (digits.reverse.dropWhile (· == '0')).reverse

/-- The fewest digits that are rounded back to a positive finite number, without zeros at their
end, and the place of the first of them.
-/
def shortest (significand : Nat) (exponent : Int) : List Char × Int :=
  let range := interval significand exponent
  let place := leadingPlace range.value range.denominator
  let candidate? := (List.range 17).findSome? fun (count : Nat) =>
    let power := place - (count + 1)
    (range.nearest? power).map fun multiple => (multiple, power)
  let (multiple, power) := candidate?.getD (0, 0)
  let digits := digitsOfNat multiple
  (trimZeros digits, digits.length + power)

/-- A point and a zero behind digits that have no point. -/
def withPoint (digits : List Char) : List Char :=
  if digits.contains '.' then digits else digits ++ ['.', '0']

/-- Digits with the place of the first of them. Numbers from a ten-thousandth up to `10 ^ 16` are
written in full and always with a point, others with an exponent of at least two digits.
-/
def layout (digits : List Char) (place : Int) : List Char :=
  if -4 < place && place ≤ 16 then
    withPoint (pointed digits place)
  else
    let power := digitsOfNat (place - 1).natAbs
    let sign := if place - 1 < 0 then '-' else '+'
    pointed digits 1 ++ 'e' :: sign :: (List.replicate (2 - power.length) '0' ++ power)

/-- The characters of a floating point number. -/
def toChars : Binary64 → List Char
  | nan => "nan".toList
  | infinite negative => signChars negative ++ "inf".toList
  | finite negative significand exponent =>
      let magnitude :=
        if significand = 0 then
          "0.0".toList
        else
          let (digits, place) := shortest significand exponent
          layout digits place
      signChars negative ++ magnitude

/-- A floating point number with the fewest digits that are rounded back to it. -/
def toText (number : Binary64) : String :=
  String.ofList number.toChars

end Binary64

end ArgBinding.Numeral
