import ArgBinding.Param.Simple

/-! The notation of a parameter: the declaration that makes an equal one, with all its fields.
-/

namespace ArgBinding

open ArgBinding.Text

/-- Values in round brackets. A single value is followed by a comma. -/
def parenthesized : List String → String
  | [value] => "(" ++ value ++ ",)"
  | values => "(" ++ String.intercalate ", " values ++ ")"

/-- The notation of a truth value. -/
def truthSpelled (value : Bool) : String :=
  (Datum.truth value).spelled

/-- The notation of a text that may be missing. -/
def textSpelled : Option String → String
  | none => Datum.null.spelled
  | some text => quoted text

/-- The notation of choices. -/
def Choices.spelled : Choices → String
  | none => Datum.null.spelled
  | some values => parenthesized (values.map quoted)

/-- The notation of a parameter that takes plain values. -/
def Simple.spelled (param : Simple) : String :=
  let fields :=
    "name=" ++ quoted param.name
      ++ ", allow_multiple=" ++ truthSpelled param.allowMultiple
      ++ ", separator=" ++ quoted param.separator
      ++ ", allowed_values=" ++ param.choices.spelled
  match param.presence with
  | .required => "RequiredArg(" ++ fields ++ ")"
  | .optional default => "OptionalArg(" ++ fields ++ ", default=" ++ textSpelled default ++ ")"

end ArgBinding
