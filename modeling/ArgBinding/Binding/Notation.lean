import ArgBinding.Binding.Bound
import ArgBinding.Text.Listed
import ArgBinding.Text.Quoted

/-! The notation of bound values: names and values are quoted, in the order of declaration. -/

namespace ArgBinding

open ArgBinding.Text

/-- Pairs of a quoted name and the notation of its value, in curly brackets. -/
def braced (pairs : List (String × String)) : String :=
  let fields := pairs.map fun (name, value) => quoted name ++ ": " ++ value
  "\x7b" ++ String.intercalate ", " fields ++ "\x7d"

/-- The notation of values. -/
def valuesSpelled (values : List String) : String :=
  listed (values.map quoted)

/-- The notation of values by name. -/
def tableSpelled (table : Table) : String :=
  braced (table.map fun (name, values) => (name, valuesSpelled values))

/-- The notation of what a parameter is bound to. -/
def Contents.spelled : Contents → String
  | .plain values => valuesSpelled values
  | .repeated tables => listed (tables.map tableSpelled)

/-- The notation of all bound values. -/
def Bound.spelled (bound : Bound) : String :=
  let pairs := bound.contents.map fun (name, contents) => (name, contents.spelled)
  "DslParams(" ++ braced pairs ++ ")"

/-- The notation of one repetition. -/
def Repetition.spelled (repetition : Repetition) : String :=
  "RepeatingGroup(" ++ tableSpelled repetition.contents ++ ")"

end ArgBinding
