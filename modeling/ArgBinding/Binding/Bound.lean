import ArgBinding.Binding.Basic

/-! What binding results in: the values of plain parameters and the repetitions of groups, the
replacer that is applied when a value is read, and the values in the order in which they were
bound.
-/

namespace ArgBinding

open ArgBinding.Text

/-- A function applied to each value when it is read. -/
abbrev Replacer := String → String

/-- The replacer of one call, if there is one, otherwise that of all calls. Without either values
are read as they are.
-/
def effectiveReplacer (general call : Option Replacer) : Replacer :=
  (call.or general).getD id

/-- The values of one repetition of a group. -/
structure Repetition where
  group : Group
  values : Table
  replacer : Replacer

/-- Values bound to parameters, and the repetitions of groups by the keys of the groups. -/
structure Bound where
  params : List Param
  values : Table
  groups : List (String × List Repetition)
  replacer : Replacer
  applied : List (String × String)

/-- What a parameter is bound to: values, or the named values of each repetition. -/
inductive Contents where
  | plain (values : List String)
  | repeated (tables : List Table)
  deriving DecidableEq

namespace Repetition

/-- The values of the parameters by name, in the order of declaration, as they were bound. -/
def contents (repetition : Repetition) : Table :=
  repetition.group.params.map fun param => (param.name, repetition.values.at param.key)

end Repetition

namespace Bound

/-- The parameter that a name means, in any case. A later declaration hides an earlier one. -/
def find? (bound : Bound) (name : String) : Option Param :=
  bound.params.reverse.find? fun param => param.key == lower name

/-- The repetitions under the key of a group. -/
def repetitionsAt (bound : Bound) (key : String) : List Repetition :=
  (bound.groups.lookup key).getD []

/-- What a parameter is bound to, before replacement. -/
def contentsOf (bound : Bound) : Param → Contents
  | .simple param => .plain (bound.values.at param.key)
  | .repeating group => .repeated ((bound.repetitionsAt group.key).map Repetition.contents)

/-- Pairs with one more under its key. A key that is there keeps its place and takes the new value.
-/
def put {α : Type} (key : String) (value : α) : List (String × α) → List (String × α)
  | [] => [(key, value)]
  | (other, kept) :: rest =>
      if other = key then (key, value) :: rest else (other, kept) :: put key value rest

/-- What all parameters are bound to, by name and in the order of declaration. -/
def contents (bound : Bound) : List (String × Contents) :=
  bound.params.foldl (fun pairs param => put param.name (bound.contentsOf param) pairs) []

/-- The groups among some parameters that go by a key. -/
def groupsAt (params : List Param) (key : String) : List Group :=
  params.filterMap fun
    | .simple _ => none
    | .repeating group => if group.key = key then some group else none

/-- Values that are put together without binding. The tables under a key are repetitions of the last
group that goes by the key; without such a group there are none.
-/
def ofTables (params : List Param) (values : Table) (groups : List (String × List Table))
    (replacer : Replacer) (applied : List (String × String))
    : Bound :=
  {
    params := params
    values := values
    groups := groups.map fun (key, tables) =>
      match (groupsAt params key).getLast? with
      | none => (key, [])
      | some group =>
          (key, tables.map fun table =>
            { group := group, values := table, replacer := replacer })
    replacer := replacer
    applied := applied
  }

end Bound

end ArgBinding
