import ArgBinding.Argument
import ArgBinding.BindingError
import ArgBinding.Schema
import ArgBinding.Text.Separated

/-! Values bound to parameters in the order in which they were bound. Binding an argument to a
parameter adds its values, each of which must be allowed; a parameter of a single value takes only
one argument.
-/

namespace ArgBinding

open ArgBinding.Text

/-- A value bound to a parameter. -/
structure Binding where
  param : Simple
  value : String
  deriving DecidableEq

/-- The values bound under a key, in the order in which they were bound. -/
def boundValues (key : String) (bindings : List Binding) : List String :=
  bindings.filterMap fun binding =>
    if binding.param.key = key then some binding.value else none

/-- Values bound later come behind those bound earlier. -/
theorem boundValues_append (key : String) (earlier later : List Binding)
    : boundValues key (earlier ++ later) = boundValues key earlier ++ boundValues key later := by
  simp [boundValues]

/-- The spelling under which a value is taken, if it is allowed. -/
def acceptValue (name : String) (choices : Choices) (value : String)
    : Except BindingError String :=
  match choices.select? value with
  | some accepted => .ok accepted
  | none => .error (.notAllowed name value (choices.getD []))

namespace Simple

/-- Whether an argument may be bound to the parameter: it is positional or has its name. -/
def takes (param : Simple) (argument : Argument) : Bool :=
  match argument.name with
  | none => true
  | some name => lower name == param.key

/-- The values in the text of an argument. Only a parameter of several values splits it. -/
def valuesIn (param : Simple) (text : String) : List String :=
  if param.allowMultiple then separatedValues param.separator text else [text]

/-- The parameter bound to values, if all are allowed. -/
def bindAll (param : Simple) : List String → Except BindingError (List Binding)
  | [] => .ok []
  | value :: rest => do
      let accepted ← acceptValue param.name param.choices value
      let bindings ← param.bindAll rest
      .ok ({ param := param, value := accepted } :: bindings)

/-- The bindings after the text of an argument is bound to the parameter as well. -/
def bindText (param : Simple) (text : String) (bindings : List Binding)
    : Except BindingError (List Binding) :=
  if !param.allowMultiple && !(boundValues param.key bindings).isEmpty then
    .error (.repeated param.name)
  else
    (param.bindAll (param.valuesIn text)).map (bindings ++ ·)

/-- The arguments that the parameter takes from the front of some, one after the other as long as
they are positional or name it. A parameter of a single value takes one at most.
-/
def taken (param : Simple) : List Argument → List Argument
  | [] => []
  | first :: rest =>
      if param.takes first then
        first :: (if param.allowMultiple then param.taken rest else [])
      else
        []

/-- The arguments behind one bound to the parameter that are bound to it as well. -/
def continuation (param : Simple) (rest : List Argument) : List Argument :=
  if param.allowMultiple then rest.takeWhile param.takes else []

/-- The arguments that are bound as well are the first of those behind. -/
theorem continuation_append_drop (param : Simple) (rest : List Argument)
    : param.continuation rest ++ rest.drop (param.continuation rest).length = rest := by
  apply List.prefix_iff_eq_append.1
  unfold continuation
  split
  · exact List.takeWhile_prefix _
  · exact List.nil_prefix

/-- What the parameter takes are the first of the arguments, by induction on the arguments. -/
theorem taken_prefix (param : Simple) (arguments : List Argument)
    : param.taken arguments <+: arguments := by
  induction arguments with
  | nil => exact List.nil_prefix
  | cons first rest ih =>
      unfold taken
      split
      · refine List.cons_prefix_cons.2 ⟨rfl, ?_⟩
        split
        · exact ih
        · exact List.nil_prefix
      · exact List.nil_prefix

theorem taken_of_several {param : Simple} (several : param.allowMultiple = true)
    (arguments : List Argument)
    : param.taken arguments = arguments.takeWhile param.takes := by
  induction arguments with
  | nil => rfl
  | cons first rest ih =>
      rw [taken, several, if_pos rfl, ih, List.takeWhile_cons]

/-- A parameter that takes the first argument takes those that are bound as well. -/
theorem taken_cons {param : Simple} {first : Argument} (takes : param.takes first = true)
    (rest : List Argument)
    : param.taken (first :: rest) = first :: param.continuation rest := by
  rw [taken, if_pos takes, continuation]
  by_cases several : param.allowMultiple = true
  · rw [if_pos several, if_pos several, taken_of_several several]
  · rw [if_neg several, if_neg several]

/-- The values of the parameter when all arguments are bound. The error of a missing value is that
of its place.
-/
def settle (param : Simple) (missing : String → BindingError) (bindings : List Binding)
    : Except BindingError (List String) :=
  match boundValues param.key bindings with
  | value :: rest => .ok (value :: rest)
  | [] =>
      match param.presence with
      | .required => .error (missing param.name)
      | .optional default => .ok default.toList

end Simple

/-- An argument together with the parameter it is bound to. -/
abbrev Assignment := Simple × Argument

/-- The bindings after some arguments are bound to their parameters as well, in order. -/
def bindAssigned (assignments : List Assignment) (bindings : List Binding)
    : Except BindingError (List Binding) :=
  assignments.foldlM (fun bound (param, argument) => param.bindText argument.value bound) bindings

/-- Values by the keys of their parameters. A key that is not listed has no values. -/
abbrev Table := List (String × List String)

/-- The values under a key. -/
def Table.at (table : Table) (key : String) : List String :=
  (table.lookup key).getD []

/-- The table of some parameters when all arguments are bound. -/
def settleAll (missing : String → BindingError) (bindings : List Binding)
    : List Simple → Except BindingError Table
  | [] => .ok []
  | param :: rest => do
      let values ← param.settle missing bindings
      let table ← settleAll missing bindings rest
      .ok ((param.key, values) :: table)

end ArgBinding
