import ArgBinding.Binding.Bound
import ArgBinding.Binding.Log
import ArgBinding.Binding.Repetition

/-! Binding arguments to the parameters of a schema. The leading required parameters are walked in
order first, each taking arguments that are positional or name it. Every argument behind that walk
is bound by its name. At the end missing values are filled in by defaults.
-/

namespace ArgBinding

open ArgBinding.Text

/-- How far binding has come: the values bound to plain parameters, and the repetitions of groups in
the order in which they were completed.
-/
structure Progress where
  bindings : List Binding
  repetitions : List (Group × Table)

/-- The progress at the start. -/
def Progress.start : Progress :=
  { bindings := [], repetitions := [] }

/-- Binding that came to an error, with the progress up to it. -/
structure Halt where
  error : BindingError
  progress : Progress

/-- The walk over the leading required parameters: the bindings after it and the arguments that are
left. It ends at a parameter that is not required or does not take the next argument.
-/
def bindLeading : List Param → List Argument → List Binding
    → Except BindingError (List Binding × List Argument)
  | .simple param :: params, first :: rest, bindings =>
      if param.isRequired && param.takes first then
        let following := param.continuation rest
        match bindAssigned ((first :: following).map (param, ·)) bindings with
        | .error e => .error e
        | .ok bindings => bindLeading params (rest.drop following.length) bindings
      else
        .ok (bindings, first :: rest)
  | _, arguments, bindings => .ok (bindings, arguments)

/-- One block of arguments bound by the name of the first: the progress after it and the arguments
that are left.
-/
def bindBlock (schema : Schema) (progress : Progress) (first : Argument) (rest : List Argument)
    : Except BindingError (Progress × List Argument) :=
  match first.name with
  | none => .error (.ambiguous first.written)
  | some name =>
      match schema.find? name with
      | none => .error (.unexpected first.written)
      | some (.simple param) =>
          let taken := param.taken (first :: rest)
          (bindAssigned (taken.map (param, ·)) progress.bindings).map fun bindings =>
            ({ progress with bindings := bindings }, (first :: rest).drop taken.length)
      | some (.repeating group) =>
          let assigned := group.assigned (first :: rest)
          let remaining := (first :: rest).drop assigned.length
          (group.bindRepetition assigned remaining.head?).map fun table =>
            ({ progress with repetitions := progress.repetitions ++ [(group, table)] }, remaining)

/-- What a parameter takes from the front of some arguments. It may take none. -/
def Param.taken : Param → List Argument → List Argument
  | .simple param, arguments => param.taken arguments
  | .repeating group, arguments => (group.assigned arguments).map Prod.snd

theorem Param.taken_prefix (param : Param) (arguments : List Argument)
    : param.taken arguments <+: arguments := by
  cases param with
  | simple param => exact param.taken_prefix arguments
  | repeating group => exact group.assigned_prefix arguments

/-- The parameter that the name of the first argument means takes at least this argument; witness: a
name means a parameter that has its key.
-/
theorem Schema.exists_taken_eq_cons {schema : Schema} {param : Param} {first : Argument}
    {name : String} (named : first.name = some name) (found : schema.find? name = some param)
    (rest : List Argument)
    : ∃ more, param.taken (first :: rest) = first :: more := by
  have key := (Schema.key_of_find? found).2
  have takes (owner : Simple) (same : owner.key = param.key) : owner.takes first = true := by
    simp [Simple.takes, named, same, key]
  cases param with
  | simple param => exact ⟨_, Simple.taken_cons (takes param rfl) rest⟩
  | repeating group =>
      refine ⟨(group.continuation rest).map Prod.snd, ?_⟩
      rw [Param.taken, Group.assigned_cons (takes group.identity rfl), List.map_cons]

/-- One block removes from the front what the parameter takes that the first argument names. -/
theorem taken_append_of_bindBlock {schema : Schema} {progress next : Progress} {first : Argument}
    {rest remaining : List Argument}
    (bound : bindBlock schema progress first rest = .ok (next, remaining))
    : ∃ name param,
        first.name = some name
        ∧ schema.find? name = some param
        ∧ param.taken (first :: rest) ++ remaining = first :: rest := by
  unfold bindBlock at bound
  cases named : first.name with
  | none => simp [named] at bound
  | some name =>
      simp only [named] at bound
      cases found : schema.find? name with
      | none => simp [found] at bound
      | some param =>
          have left : remaining = (first :: rest).drop (param.taken (first :: rest)).length := by
            cases param with
            | simple param =>
                simp only [found, Except.map] at bound
                split at bound
                · cases bound
                · cases bound
                  rfl
            | repeating group =>
                simp only [found, Except.map] at bound
                split at bound
                · cases bound
                · cases bound
                  rw [Param.taken, List.length_map]
          refine ⟨name, param, rfl, found, ?_⟩
          rw [left]
          exact List.prefix_iff_eq_append.1 (param.taken_prefix (first :: rest))

/-- A block takes at least its first argument. -/
theorem length_bindBlock {schema : Schema} {progress next : Progress} {first : Argument}
    {rest remaining : List Argument}
    (bound : bindBlock schema progress first rest = .ok (next, remaining))
    : remaining.length ≤ rest.length := by
  obtain ⟨name, param, named, found, whole⟩ := taken_append_of_bindBlock bound
  obtain ⟨more, taken⟩ := Schema.exists_taken_eq_cons named found rest
  rw [taken, List.cons_append, List.cons.injEq] at whole
  simp [← whole.2]

/-- Binding by name until no argument is left. -/
def bindNamed (schema : Schema) (progress : Progress) : List Argument → Except Halt Progress
  | [] => .ok progress
  | first :: rest =>
      match _h : bindBlock schema progress first rest with
      | .error e => .error { error := e, progress := progress }
      | .ok (next, remaining) => bindNamed schema next remaining
termination_by arguments => arguments.length
decreasing_by
  have := length_bindBlock _h
  simp only [List.length_cons]
  omega

/-- The progress when all arguments are bound. -/
def bindArguments (schema : Schema) (arguments : List Argument) : Except Halt Progress :=
  match bindLeading schema.params arguments [] with
  | .error e => .error { error := e, progress := .start }
  | .ok (bindings, rest) => bindNamed schema { Progress.start with bindings := bindings } rest

/-- The parameters among some that take plain values. -/
def simpleParams (params : List Param) : List Simple :=
  params.filterMap fun
    | .simple param => some param
    | .repeating _ => none

/-- The groups among some parameters. -/
def groupsAmong (params : List Param) : List Group :=
  params.filterMap fun
    | .simple _ => none
    | .repeating group => some group

/-- The values in the order in which they were bound, with the names of their parameters. -/
def appliedBindings (bindings : List Binding) : List (String × String) :=
  bindings.map fun binding => (binding.param.name, binding.value)

/-- The defaults that stand in for missing values, with the names of their parameters. -/
def appliedDefaults (params : List Simple) (bindings : List Binding) : List (String × String) :=
  params.flatMap fun param =>
    if (boundValues param.key bindings).isEmpty then
      param.default?.toList.map (param.name, ·)
    else
      []

/-- The values that binding results in, once no argument is left. -/
def complete (schema : Schema) (replacer : Replacer) (progress : Progress)
    : Except BindingError Bound := do
  let params := simpleParams schema.params
  let values ← settleAll .missing progress.bindings params
  .ok {
    params := schema.params
    values := values
    groups := (groupsAmong schema.params).map fun group =>
      (group.key,
        progress.repetitions.filterMap fun (repeated, table) =>
          if repeated.key = group.key then
            some { group := repeated, values := table, replacer := replacer }
          else
            none)
    replacer := replacer
    applied :=
      appliedBindings progress.bindings ++ appliedDefaults params progress.bindings
  }

/-- The result of binding with the log of the way to it. -/
structure Report (ε : Type) where
  log : List Record
  result : Except ε Bound

/-- The log of binding some arguments, given the progress at its end. -/
def logOf (schema : Schema) (arguments : List Argument) (progress : Progress) : List Record :=
  .start arguments.length schema.params.length
    :: repetitionRecords [] (progress.repetitions.map (·.1))

/-- Arguments bound to the parameters of a schema. -/
def Schema.bind (schema : Schema) (replacer : Replacer) (arguments : List Argument)
    : Report BindingError :=
  match bindArguments schema arguments with
  | .error halt =>
      { log := logOf schema arguments halt.progress, result := .error halt.error }
  | .ok progress =>
      {
        log := logOf schema arguments progress
        result := complete schema replacer progress
      }

end ArgBinding
