import ArgBinding.Param.Group

/-! The help on declared parameters: a line for each, with the parameters of a group indented below
it.
-/

namespace ArgBinding

open ArgBinding.Text

/-- The help on a parameter that takes plain values. -/
def Simple.usage (param : Simple) : String :=
  let presence := if param.isRequired then "REQUIRED." else "Optional."
  let restriction :=
    match param.choices with
    | none => []
    | some values => ["One of " ++ listed values ++ "."]
  let splitting :=
    if param.allowMultiple then
      ["Multiple values allowed, each argument is splitted with \"" ++ param.separator ++ "\"."]
    else
      []
  let default :=
    match param.default? with
    | none => []
    | some value => ["Default `" ++ value ++ "`."]
  String.intercalate " " ([param.name, presence] ++ restriction ++ splitting ++ default)

/-- The help on a group as a whole. -/
def Group.usage (group : Group) : String :=
  group.name ++ " Repeating group."

/-- The help on a parameter in one line. -/
def Param.usage : Param → String
  | .simple param => param.usage
  | .repeating group => group.usage

/-- The help on a parameter, the parameters of a group included. -/
def Param.usageLines : Param → List String
  | .simple param => [param.usage]
  | .repeating group => group.usage :: group.params.map fun param => "    " ++ param.usage

/-- The help on some parameters. -/
def usageText (params : List Param) : String :=
  String.intercalate "\n" (params.flatMap Param.usageLines)

end ArgBinding
