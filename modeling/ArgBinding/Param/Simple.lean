import ArgBinding.SchemaError
import ArgBinding.Text.Blank

/-! Parameters that take plain values. A parameter is declared by a draft, which is checked once:
every parameter has a visible name and a separator. A parameter never changes; a revision declares
a new one from its draft.
-/

namespace ArgBinding

open ArgBinding.Text

/-- Whether a value must be supplied, and the value that stands in for a missing one. -/
inductive Presence where
  | required
  | optional (default : Option String)
  deriving DecidableEq, Repr, Hashable

/-- A parameter that takes plain values. -/
structure Simple where
  name : String
  allowMultiple : Bool
  separator : String
  choices : Choices
  presence : Presence
  name_visible : trim name ≠ ""
  separator_nonempty : separator ≠ ""
  deriving DecidableEq

/-- The separator of a parameter that is declared without one. -/
def defaultSeparator : String := ","

/-- The declaration of a parameter before it is checked. -/
structure Draft where
  name : Option String
  allowMultiple : Bool := false
  separator : Option String := some defaultSeparator
  choices : Datum := .null
  presence : Presence

/-- The advice on a parameter that is declared with this name and this separator. -/
def separatorAdvice (name separator : String) (allowMultiple : Bool) : List Advice :=
  if !allowMultiple && separator != defaultSeparator then
    [{ name := name, separator := separator }]
  else
    []

/-- The parameter that a draft declares. The name is checked first, then the separator, then the
choices; the advice is given before the choices are looked at.
-/
def Draft.declare (draft : Draft) : Advised Simple :=
  let name := draft.name.getD ""
  let separator := draft.separator.getD ""
  if hname : trim name = "" then
    .ofExcept (.error .blankName)
  else if hseparator : separator = "" then
    .ofExcept (.error (.emptySeparator name))
  else
    {
      advice := separatorAdvice name separator draft.allowMultiple
      result :=
        match Choices.ofDatum draft.choices with
        | .error cause => .error (.notIterable cause)
        | .ok choices =>
            .ok {
              name := name
              allowMultiple := draft.allowMultiple
              separator := separator
              choices := choices
              presence := draft.presence
              name_visible := hname
              separator_nonempty := hseparator
            }
    }

namespace Simple

/-- The name by which a parameter is looked up: lower case stands for all cases. -/
def key (param : Simple) : String :=
  lower param.name

/-- Whether a value must be supplied. -/
def isRequired (param : Simple) : Bool :=
  param.presence == .required

/-- The value that stands in for a missing one. -/
def default? (param : Simple) : Option String :=
  match param.presence with
  | .required => none
  | .optional default => default

/-- The draft that declares the parameter again. -/
def draft (param : Simple) : Draft :=
  {
    name := some param.name
    allowMultiple := param.allowMultiple
    separator := some param.separator
    choices := param.choices.toDatum
    presence := param.presence
  }

/-- One step in revising a parameter. -/
inductive Revision where
  /-- Take several values, joined by a separator. -/
  | allowMultiple (separator : Option String)
  /-- Take only the values that these data describe: a type on its own stands for its values. -/
  | restrict (values : List Datum)
  /-- Let a value stand in for a missing one. A required parameter has no such value. -/
  | useDefault (default : Option String)

/-- The draft after one step. -/
def Revision.apply (revision : Revision) (draft : Draft) : Draft :=
  match revision with
  | .allowMultiple separator => { draft with allowMultiple := true, separator := separator }
  | .restrict [.kind kind] => { draft with choices := .kind kind }
  | .restrict values => { draft with choices := .list values }
  | .useDefault default =>
      match draft.presence with
      | .required => draft
      | .optional _ => { draft with presence := .optional default }

/-- The parameter after one step. -/
def revise (param : Simple) (revision : Revision) : Advised Simple :=
  (revision.apply param.draft).declare

/-- The parameter after some steps, all of which must succeed. -/
def reviseAll (param : Simple) : List Revision → Advised Simple
  | [] => pure param
  | revision :: rest => (param.revise revision).andThen fun revised => revised.reviseAll rest

/-- The parameter after one step. A step that fails leaves it as it was. -/
def revised (param : Simple) (revision : Revision) : Simple :=
  match (param.revise revision).result with
  | .ok revised => revised
  | .error _ => param

/-- The outcomes of some steps, each taken on what the steps before it left. -/
def revisions (param : Simple) : List Revision → List (Advised Simple)
  | [] => []
  | revision :: rest => param.revise revision :: (param.revised revision).revisions rest

/-- Declaring the draft of a parameter gives the parameter back; witness: its choices. -/
theorem declare_draft (param : Simple) : param.draft.declare.result = .ok param := by
  simp [Draft.declare, draft, param.name_visible, param.separator_nonempty,
    Choices.ofDatum_toDatum]

instance : Hashable Simple where
  hash param :=
    hash (param.name, param.allowMultiple, param.separator, param.choices, param.presence)

end Simple

end ArgBinding
