import ArgBinding.Binding.Bound
import ArgBinding.Reading

/-! Access to bound values by name, in any case. Every value that is read passes the replacer once.
Bound values can be copied into arguments for another call.
-/

namespace ArgBinding

open ArgBinding.Text

/-- The single value of a parameter, if there is one. Only a parameter of a single value is read
so.
-/
def Simple.single (param : Simple) (values : List String) : Except ReadError (Option String) :=
  if param.allowMultiple then .error (.multiple param.name) else .ok values.head?

/-- The reading of a name that means a parameter with some values. -/
def Simple.reading (param : Simple) (replacer : Replacer) (name : Option String)
    (values : List String)
    : Reading :=
  {
    name := name
    hasValue := .ok (!values.isEmpty)
    value := (param.single values).map (·.map replacer)
    values := .ok (values.map replacer)
  }

namespace Repetition

/-- The reading of a name in one repetition of a group. -/
def read (repetition : Repetition) (name : Option String) : Reading :=
  match repetition.group.find? name with
  | some param =>
      param.reading repetition.replacer name (repetition.values.at param.key)
  | none =>
      {
        name := name
        hasValue := .error (.unknownMember name)
        value := .error (.unknownMember name)
        values := .error (.unknownMember name)
      }

/-- The values of a repetition as arguments, in the order of declaration. -/
def arguments (repetition : Repetition) : List String :=
  repetition.group.params.flatMap fun param =>
    (repetition.values.at param.key).map fun value =>
      Argument.render param.name (repetition.replacer value)

end Repetition

namespace Bound

/-- The parameter that a name means, in any case. -/
def named (bound : Bound) (name : Option String) : Except ReadError Param :=
  match name.bind bound.find? with
  | some param => .ok param
  | none => .error (.unknown name)

/-- The reading of a name. A name without a parameter has no value. -/
def read (bound : Bound) (name : Option String) : Reading :=
  match name.bind bound.find? with
  | some (.simple param) =>
      param.reading bound.replacer name (bound.values.at param.key)
  | some (.repeating group) =>
      {
        name := name
        hasValue := .ok (!(bound.repetitionsAt group.key).isEmpty)
        value := .error (.isGroup name)
        values := .error (.isGroup name)
      }
  | none =>
      {
        name := name
        hasValue := .ok false
        value := .error (.unknown name)
        values := .error (.unknown name)
      }

/-- The repetitions of the group that a name means. -/
def repetitions (bound : Bound) (name : Option String) : Except ReadError (List Repetition) :=
  match bound.named name with
  | .error e => .error e
  | .ok (.simple _) => .error (.notGroup name)
  | .ok (.repeating group) => .ok (bound.repetitionsAt group.key)

/-- What a parameter is bound to as arguments. -/
def argumentsOf (bound : Bound) : Param → List String
  | .simple param =>
      (bound.values.at param.key).map fun value =>
        Argument.render param.name (bound.replacer value)
  | .repeating group => (bound.repetitionsAt group.key).flatMap Repetition.arguments

/-- The parameters without those whose key came before. -/
def distinct (before : List String) : List Param → List Param
  | [] => []
  | param :: rest =>
      if before.contains param.key then
        distinct before rest
      else
        param :: distinct (param.key :: before) rest

/-- What some names are bound to as arguments for another call, in the order of the names. A name
that comes again is passed over, and one that means no parameter is an error.
-/
def copy (bound : Bound) (names : List (Option String)) : Except ReadError (List String) := do
  let params ← names.mapM bound.named
  .ok ((distinct [] params).flatMap bound.argumentsOf)

end Bound

end ArgBinding
