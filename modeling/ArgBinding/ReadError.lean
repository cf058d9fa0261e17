import ArgBinding.Numeral.Decimal
import ArgBinding.Numeral.Integer
import ArgBinding.Text.Quoted

/-! Why a bound value cannot be read. -/

namespace ArgBinding

open ArgBinding.Numeral ArgBinding.Text

/-- Why a bound value cannot be read. A name is given as it was asked for, which may be missing.
-/
inductive ReadError where
  /-- No parameter has the name. -/
  | unknown (name : Option String)
  /-- No parameter of a group has the name. -/
  | unknownMember (name : Option String)
  /-- A group is read as a plain parameter. -/
  | isGroup (name : Option String)
  /-- A plain parameter is read as a group. -/
  | notGroup (name : Option String)
  /-- A parameter of several values is read as a single value. -/
  | multiple (name : String)
  /-- A value is needed and there is none. -/
  | noValue (name : Option String)
  /-- A value is no whole number, or has too many digits to be converted. -/
  | integer (cause : IntegerError) (text : String)
  /-- A value is no floating point number. -/
  | binary64 (text : String)
  /-- A value is no decimal, or out of range. -/
  | decimal (cause : DecimalError)
  /-- A value is the name of no member of an enumeration. -/
  | noMember (text : String)
  /-- There is nothing to read from. -/
  | unsupported
  deriving DecidableEq, Repr

/-- A name as it stands in messages. -/
def shownName (name : Option String) : String :=
  name.getD "None"

/-- The longest quotation of a text that is no whole number. -/
def maxQuotation : Nat := 200

/-- The text of the error. -/
def ReadError.message : ReadError → String
  | unknown name => shownName name ++ " was not a parameter"
  | unknownMember name =>
      "Parameter " ++ shownName name ++ " does not exist in this repeating group"
  | isGroup name => shownName name ++ " is a repeating group, use values_as_group()"
  | notGroup name => shownName name ++ " was not a repeating group"
  | multiple name => "values() should be used when multiple values are allowed: " ++ name
  | noValue name => "No value supplied for parameter: " ++ shownName name
  | integer .malformed text =>
      "invalid literal for int() with base 10: "
        ++ String.ofList ((quoted text).toList.take maxQuotation)
  | integer (.tooLong digits) _ =>
      "Exceeds the limit (" ++ toString maxDigits
        ++ " digits) for integer string conversion: value has " ++ toString digits
        ++ " digits; use sys.set_int_max_str_digits() to increase the limit"
  | binary64 text => "could not convert string to float: " ++ quoted text
  | decimal .malformed => "[<class 'decimal.ConversionSyntax'>]"
  | decimal .outOfRange => "[<class 'decimal.InvalidOperation'>]"
  | noMember text => quoted text
  | unsupported => ""

end ArgBinding
