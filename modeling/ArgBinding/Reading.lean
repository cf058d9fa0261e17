import ArgBinding.Argument
import ArgBinding.Choices
import ArgBinding.ReadError

/-! Reading what is bound to a name. A reading answers three questions about one name: whether it
has a value, which single value it has, and which values it has. All typed access is a function of
these answers, so two sources that agree on them agree on every access.
-/

namespace ArgBinding

open ArgBinding.Numeral

/-- What a source answers about a name. -/
structure Reading where
  name : Option String
  hasValue : Except ReadError Bool
  value : Except ReadError (Option String)
  values : Except ReadError (List String)

-----------------------------------------------------------------------------------------
-- Conversions
-----------------------------------------------------------------------------------------

/-- The whole number that a value stands for. -/
def integerOf (text : String) : Except ReadError Int :=
  (readInteger text).mapError (.integer · text)

/-- The floating point number that a value stands for. -/
def binary64Of (text : String) : Except ReadError Binary64 :=
  match Binary64.ofText? text with
  | some number => .ok number
  | none => .error (.binary64 text)

/-- The decimal that a value stands for. -/
def decimalOf (text : String) : Except ReadError Decimal :=
  (Decimal.ofText text).mapError .decimal

/-- The member of an enumeration that a value names. -/
def memberOf (enumeration : Enumeration) (text : String) : Except ReadError String :=
  match enumeration.find? text with
  | some member => .ok member
  | none => .error (.noMember text)

namespace Reading

/-- The reading of a name where there is nothing to read from. -/
def unsupported (name : Option String) : Reading :=
  {
    name := name
    hasValue := .error .unsupported
    value := .error .unsupported
    values := .error .unsupported
  }

-----------------------------------------------------------------------------------------
-- A single value
-----------------------------------------------------------------------------------------

/-- The single value after a conversion, if there is one. -/
def converted? {α : Type} (reading : Reading) (convert : String → Except ReadError α)
    : Except ReadError (Option α) :=
  match reading.value with
  | .error e => .error e
  | .ok none => .ok none
  | .ok (some text) => (convert text).map some

/-- The single value after a conversion. -/
def converted {α : Type} (reading : Reading) (convert : String → Except ReadError α)
    : Except ReadError α :=
  match reading.value with
  | .error e => .error e
  | .ok none => .error (.noValue reading.name)
  | .ok (some text) => convert text

/-- The single value after a conversion, where a value is there to be converted. -/
def convertedIfPresent {α : Type} (reading : Reading) (convert : String → Except ReadError α)
    : Except ReadError (Option α) :=
  match reading.hasValue with
  | .error e => .error e
  | .ok false => .ok none
  | .ok true => (reading.converted convert).map some

/-- A function of the single value, if there is one. -/
def mapped? {α : Type} (reading : Reading) (f : String → α) : Except ReadError (Option α) :=
  reading.converted? fun text => .ok (f text)

/-- The single value as a member of an enumeration, if there is one. -/
def member? (reading : Reading) (enumeration : Enumeration)
    : Except ReadError (Option String) :=
  reading.converted? (memberOf enumeration)

/-- The single value as a whole number. -/
def integer (reading : Reading) : Except ReadError Int :=
  reading.converted integerOf

/-- The single value as a floating point number. -/
def binary64 (reading : Reading) : Except ReadError Binary64 :=
  reading.converted binary64Of

/-- The single value as a decimal. -/
def decimal (reading : Reading) : Except ReadError Decimal :=
  reading.converted decimalOf

/-- Whether the single value spells out truth. No value is false. -/
def truth (reading : Reading) : Except ReadError Bool :=
  reading.value.map isTrue

/-- The single value as a whole number, where there is one. -/
def integer? (reading : Reading) : Except ReadError (Option Int) :=
  reading.convertedIfPresent integerOf

/-- The single value as a floating point number, where there is one. -/
def binary64? (reading : Reading) : Except ReadError (Option Binary64) :=
  reading.convertedIfPresent binary64Of

/-- The single value as an argument for another name, if there is one. -/
def argumentFor? (reading : Reading) (name : Option String)
    : Except ReadError (Option String) :=
  reading.mapped? (Argument.render (shownName name))

/-- The single value as an argument for its own name, if there is one. -/
def argument? (reading : Reading) : Except ReadError (Option String) :=
  reading.argumentFor? reading.name

-----------------------------------------------------------------------------------------
-- All values
-----------------------------------------------------------------------------------------

/-- All texts after a conversion. The first that cannot be converted is the error. -/
def convertEach {α : Type} (convert : String → Except ReadError α)
    : List String → Except ReadError (List α)
  | [] => .ok []
  | text :: rest => do
      let first ← convert text
      let others ← convertEach convert rest
      .ok (first :: others)

/-- All values after a conversion. -/
def allConverted {α : Type} (reading : Reading) (convert : String → Except ReadError α)
    : Except ReadError (List α) :=
  match reading.values with
  | .error e => .error e
  | .ok texts => convertEach convert texts

/-- A function of all values. -/
def allMapped {α : Type} (reading : Reading) (f : String → α) : Except ReadError (List α) :=
  reading.values.map (·.map f)

/-- All values as members of an enumeration. -/
def members (reading : Reading) (enumeration : Enumeration) : Except ReadError (List String) :=
  reading.allConverted (memberOf enumeration)

/-- All values as whole numbers. -/
def integers (reading : Reading) : Except ReadError (List Int) :=
  reading.allConverted integerOf

/-- All values as floating point numbers. -/
def binary64s (reading : Reading) : Except ReadError (List Binary64) :=
  reading.allConverted binary64Of

/-- All values as decimals. -/
def decimals (reading : Reading) : Except ReadError (List Decimal) :=
  reading.allConverted decimalOf

/-- All values, if there are any. -/
def values? (reading : Reading) : Except ReadError (Option (List String)) :=
  reading.values.map fun texts => if texts.isEmpty then none else some texts

end Reading

end ArgBinding
