import ArgBinding.Binding.Basic

/-! One repetition of a group. It starts with an argument that names the identity and goes on as
long as arguments name parameters of the group that can still take them. A positional argument
behind it is an error, as a name has to tell whether the group goes on.
-/

namespace ArgBinding

open ArgBinding.Text

namespace Group

/-- The arguments that go on with a repetition, with their parameters, given the keys that are bound
in it already. It ends before an argument that names no parameter of the group or names one of a
single value again.
-/
def continuationFrom (group : Group) (bound : List String) : List Argument → List Assignment
  | [] => []
  | argument :: rest =>
      match group.find? argument.name with
      | none => []
      | some param =>
          if !param.allowMultiple && bound.contains param.key then
            []
          else
            (param, argument) :: group.continuationFrom (param.key :: bound) rest

/-- The arguments that go on with a repetition behind the one that names the identity. -/
def continuation (group : Group) (rest : List Argument) : List Assignment :=
  group.continuationFrom [group.identity.key] rest

/-- The arguments that go on with a repetition are the first of those behind; induction on the
arguments.
-/
theorem continuationFrom_prefix (group : Group) (bound : List String) (rest : List Argument)
    : (group.continuationFrom bound rest).map Prod.snd <+: rest := by
  induction rest generalizing bound with
  | nil => simp [continuationFrom]
  | cons argument rest ih =>
      simp only [continuationFrom]
      split
      · simp
      · split
        · simp
        · simpa using ih _

/-- The arguments of a repetition at the front of some, with their parameters: what the identity
takes, and behind it those that go on with the repetition.
-/
def assigned (group : Group) (arguments : List Argument) : List Assignment :=
  let front := group.identity.taken arguments
  front.map (group.identity, ·)
    ++ group.continuationFrom (front.map fun _ => group.identity.key) (arguments.drop front.length)

/-- The arguments of a repetition are the first of those at the front of which it stands. -/
theorem assigned_prefix (group : Group) (arguments : List Argument)
    : (group.assigned arguments).map Prod.snd <+: arguments := by
  have whole := List.prefix_iff_eq_append.1 (group.identity.taken_prefix arguments)
  have behind := (List.prefix_append_right_inj (group.identity.taken arguments)).2
    (group.continuationFrom_prefix
      ((group.identity.taken arguments).map fun _ => group.identity.key)
      (arguments.drop (group.identity.taken arguments).length))
  rw [whole] at behind
  simpa [assigned, Function.comp_def] using behind

/-- A repetition takes the first argument when its identity does. The identity takes no other, as it
has a single value.
-/
theorem assigned_cons {group : Group} {first : Argument}
    (takes : group.identity.takes first = true) (rest : List Argument)
    : group.assigned (first :: rest) = (group.identity, first) :: group.continuation rest := by
  have front : group.identity.taken (first :: rest) = [first] := by
    rw [Simple.taken_cons takes, Simple.continuation, group.identity_single]
    rfl
  unfold assigned
  rw [front]
  rfl

/-- The values of one repetition, given its arguments with their parameters and the argument behind
it. All its arguments are bound before the one behind it is looked at.
-/
def bindRepetition (group : Group) (assignments : List Assignment) (next? : Option Argument)
    : Except BindingError Table := do
  let bindings ← bindAssigned assignments []
  match next? with
  | some next =>
      if next.isPositional then
        .error (.ambiguous next.written)
      else
        settleAll (.ofMissingMember group.name) bindings group.params
  | none => settleAll (.ofMissingMember group.name) bindings group.params

end Group

end ArgBinding
