import ArgBinding.Binding.Access
import ArgBinding.Binding.Progress
import ArgBinding.Error

/-! Binding arguments to declared parameters in one call. A single argument that asks for the help
is answered by it before anything else; then the declarations are checked and the arguments bound.
-/

namespace ArgBinding

/-- The argument that asks for the help when it stands alone. -/
def usageRequest : String := "-usage"

/-- The parameters among some declarations. -/
def declaredParams (entries : List Entry) : List Param :=
  entries.filterMap fun
    | .declared param => some param
    | .other _ => none

/-- Where parameters are expected, declarations stand for the parameters among them. -/
instance : Coe (List Entry) (List Param) where
  coe := declaredParams

/-- Arguments bound to declared parameters. Missing arguments are passed over, and a missing list of
arguments is an empty one.
-/
def bind (entries : List Entry) (replacer : Replacer) (given : Option (List (Option String)))
    : Report Error :=
  let arguments := given.getD []
  if arguments = [some usageRequest] then
    { log := [], result := .error (.usage entries) }
  else
    match Schema.declare entries with
    | .error cause => { log := [], result := .error (.schema cause) }
    | .ok schema =>
        let report := schema.bind replacer (Argument.ofTexts arguments)
        { log := report.log, result := report.result.mapError .binding }

/-- A missing list of arguments is bound as the empty one. -/
theorem bind_getD (entries : List Entry) (replacer : Replacer)
    (given : Option (List (Option String)))
    : bind entries replacer (some (given.getD [])) = bind entries replacer given :=
  rfl

/-- On accepted declarations, a call that does not ask for the help binds the arguments to them. -/
theorem bind_of_accepted {entries : List Entry} {schema : Schema}
    {arguments : List (Option String)} (replacer : Replacer)
    (accepted : Schema.declare entries = .ok schema) (notUsage : arguments ≠ [some usageRequest])
    : bind entries replacer arguments
      = {
          log := (schema.bind replacer (Argument.ofTexts arguments)).log
          result := (schema.bind replacer (Argument.ofTexts arguments)).result.mapError .binding
        } := by
  simp only [bind, Option.getD_some, if_neg notUsage, accepted]

/-- The value of the only argument, for a call that takes one parameter. -/
def bindSingle (name : Option String) (given : Option (List (Option String)))
    : Except Error (Option String) := do
  let declared : Draft := { name := name, presence := .required }
  let param ← declared.declare.result.mapError .schema
  let bound ← (bind [.declared (.simple param)] id given).result
  (bound.read name).value.mapError .reading

/-- Checks that there is no argument, for a call that takes no parameter. -/
def bindNone (given : Option (List (Option String))) : Except Error Unit :=
  (bind [] id given).result.map fun _ => ()

end ArgBinding
