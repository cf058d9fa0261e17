import ArgBinding.Directive
import ArgBinding.Text.Listed

/-! Why arguments cannot be bound to parameters. -/

namespace ArgBinding

open ArgBinding.Text

/-- Why arguments cannot be bound. -/
inductive BindingError where
  /-- A positional argument stands where only a name tells the parameter. -/
  | ambiguous (written : String)
  /-- An argument names no parameter. -/
  | unexpected (written : String)
  /-- A parameter of a single value is supplied again. -/
  | repeated (name : String)
  /-- A value is none of those its parameter may take. -/
  | notAllowed (name value : String) (choices : List String)
  /-- A required parameter has no value. -/
  | missing (name : String)
  /-- A required parameter of a group has no value in a repetition. The name of the group is a text
  with directives, which is given here as it is written out. -/
  | missingMember (member group : String)
  /-- A required parameter of a group has no value in a repetition, and the name of the group
  cannot be written out. -/
  | unwritableGroup (cause : DirectiveError)
  deriving DecidableEq, Repr

/-- The text of the error. -/
def BindingError.message : BindingError → String
  | ambiguous written => "Unexpected ambiguous argument " ++ written
  | unexpected written => "Unexpected argument " ++ written
  | repeated name => "Multiple " ++ name ++ " parameters are not allowed"
  | notAllowed name value choices =>
      name ++ " parameter value '" ++ value ++ "' must be one of: " ++ listed choices
  | missing name => "Missing value for parameter: " ++ name
  | missingMember member group =>
      "Did not supply a value for " ++ member ++ " in group " ++ group
  | unwritableGroup cause => cause.message

/-- The error of a repetition in which a required parameter has no value. -/
def BindingError.ofMissingMember (group member : String) : BindingError :=
  match expandDirectives group.toList with
  | .ok written => missingMember member (String.ofList written)
  | .error cause => unwritableGroup cause

end ArgBinding
