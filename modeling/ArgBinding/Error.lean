import ArgBinding.BindingError
import ArgBinding.ReadError
import ArgBinding.SchemaError
import ArgBinding.Usage

/-! The errors of the library taken together, by the stage that they come from. -/

namespace ArgBinding

/-- What stands in the way of an answer. -/
inductive Error where
  /-- The help was asked for on these declarations, which are not checked. -/
  | usage (entries : List Entry)
  /-- A declaration is rejected. -/
  | schema (cause : SchemaError)
  /-- The arguments cannot be bound. -/
  | binding (cause : BindingError)
  /-- A bound value cannot be read. -/
  | reading (cause : ReadError)

/-- The text of the error. -/
def Error.message : Error → String
  | usage _ => "usage requested"
  | schema cause => cause.message
  | binding cause => cause.message
  | reading cause => cause.message

end ArgBinding
