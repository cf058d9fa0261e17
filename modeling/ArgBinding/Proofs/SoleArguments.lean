import ArgBinding.Proofs.MissingMembers
import ArgBinding.Proofs.PositionalArguments

/-! Calls that take one parameter or none. A call for one parameter returns the value of the only
argument that is not missing, which is positional or has the name of the parameter; a call for no
parameter allows no argument. Every other argument list is refused with the error of the first
argument that has no place, or of the value that is missing.
-/

namespace ArgBinding

open ArgBinding.Text

-----------------------------------------------------------------------------------------
-- One parameter
-----------------------------------------------------------------------------------------

namespace Simple

variable {param : Simple}

/-- The schema that declares one parameter. -/
def alone (param : Simple) : Schema :=
  {
    params := [.simple param]
    keys_nodup := List.nodup_singleton _
    required_first := List.pairwise_singleton _ _
  }

/-- The progress of a run that has bound one value to the parameter. -/
def filled (param : Simple) (value : String) : Progress :=
  { bindings := [{ param := param, value := value }], repetitions := [] }

theorem boundValues_filled (param : Simple) (value : String)
    : boundValues param.key (param.filled value).bindings = [value] := by
  simp [filled, boundValues]

/-- Why an argument has no place in a schema of one parameter that is bound already, or that has
another name. A positional argument does not tell the parameter to which it goes.
-/
def refusal (param : Simple) (argument : Argument) : BindingError :=
  if argument.name = none then
    .ambiguous argument.written
  else if argument.Names param.key then
    .repeated param.name
  else
    .unexpected argument.written

theorem refusal_ofArguments (param : Simple) (argument : Argument)
    : (param.refusal argument).OfArguments := by
  unfold refusal
  split
  · trivial
  · split <;> trivial

/-- The value that a parameter of a single value takes from arguments of which none may be left. -/
def onlyValue (param : Simple) : List Argument → Except BindingError String
  | [] => .error (.missing param.name)
  | [argument] =>
      if argument.Fits param.key then .ok argument.value else .error (param.refusal argument)
  | first :: next :: _ => .error (param.refusal (if first.Fits param.key then next else first))

theorem onlyValue_eq_ok_iff {arguments : List Argument} {value : String}
    : param.onlyValue arguments = .ok value
      ↔ ∃ argument, arguments = [argument] ∧ argument.Fits param.key ∧ value = argument.value := by
  unfold onlyValue
  split
  · simp
  · rename_i argument
    by_cases fits : argument.Fits param.key
    · simp [fits, eq_comm]
    · simp [fits]
  · simp

theorem ofArguments_of_onlyValue {arguments : List Argument} {e : BindingError}
    (fails : param.onlyValue arguments = .error e)
    : e.OfArguments := by
  unfold onlyValue at fails
  split at fails
  · cases fails
    trivial
  · split at fails
    · cases fails
    · cases fails
      exact param.refusal_ofArguments _
  · cases fails
    exact param.refusal_ofArguments _

/-- Binding by name refuses an argument when the parameter is bound already or is not named. -/
theorem bindNamed_alone_eq_error {progress : Progress} {argument : Argument}
    {rest : List Argument} (single : param.allowMultiple = false)
    (full : argument.Names param.key → boundValues param.key progress.bindings ≠ [])
    : bindNamed param.alone progress (argument :: rest)
      = .error { error := param.refusal argument, progress := progress } := by
  have refused : bindBlock param.alone progress argument rest
      = .error (param.refusal argument) := by
    unfold refusal
    by_cases names : argument.Names param.key
    · rw [if_neg names.name_ne_none, if_pos names,
        bindBlock_of_simple (List.mem_singleton_self _) names, List.map_cons, bindAssigned_cons,
        Simple.bindText_eq_repeated_iff.2 ⟨single, full names, rfl⟩]
      rfl
    · have unknown : ∀ other ∈ param.alone.params, ¬ argument.Names other.key := by
        intro other member
        rwa [List.mem_singleton.1 member]
      rw [bindBlock_of_unknown unknown, if_neg names]
  rw [bindNamed_cons, refused]

theorem bindText_of_unbound {text : String} (single : param.allowMultiple = false)
    (free : param.choices = none)
    : param.bindText text [] = .ok [{ param := param, value := text }] := by
  rw [bindText_eq_ok_iff]
  simp [boundValues, Allows, valuesFrom, valuesIn, single, free, Choices.select?]

/-- The run of a required parameter of a single value that takes any value: the walk binds the first
argument if it fits, and binding by name refuses what is left.
-/
theorem bindArguments_alone (required : param.isRequired = true)
    (single : param.allowMultiple = false) (free : param.choices = none)
    (first : Argument) (rest : List Argument)
    : bindArguments param.alone (first :: rest)
      = if first.Fits param.key then
          bindNamed param.alone (param.filled first.value) rest
        else
          .error { error := param.refusal first, progress := .start } := by
  unfold bindArguments
  split_ifs with fits
  · have passes : bindLeading param.alone.params (first :: rest) []
        = .ok ((param.filled first.value).bindings, rest) := by
      have alone : param.continuation rest = [] := by
        simp [continuation, single]
      refine (bindLeading_of_fits required fits).trans ?_
      rw [alone, List.map_singleton, bindAssigned_cons, bindText_of_unbound single free]
      exact bindLeading_of_stops _ (by simp)
    rw [passes]
    rfl
  · have stays : bindLeading param.alone.params (first :: rest) [] = .ok ([], first :: rest) := by
      refine bindLeading_of_stops [] ?_
      intro declared isDeclared next isNext _
      obtain rfl : .simple param = declared := by simpa [alone] using isDeclared
      obtain rfl : first = next := by simpa using isNext
      exact fits
    rw [stays]
    exact bindNamed_alone_eq_error single fun names => (fits (Or.inr names)).elim

theorem lacking?_start (required : param.isRequired = true)
    : param.alone.lacking? .start = some param := by
  simp [Schema.lacking?, alone, simpleParams, firstLacking?, Progress.start, boundValues, required]

theorem lacking?_filled (value : String) : param.alone.lacking? (param.filled value) = none := by
  simp [Schema.lacking?, alone, simpleParams, firstLacking?, boundValues_filled]

/-- Arguments are bound to the parameter exactly when its value can be taken from them; the cases
are those of none, one and several arguments.
-/
theorem bind_alone (required : param.isRequired = true) (single : param.allowMultiple = false)
    (free : param.choices = none) (replacer : Replacer) (arguments : List Argument)
    : (param.alone.bind replacer arguments).result
      = (param.onlyValue arguments).map fun value =>
          param.alone.completed replacer (param.filled value) := by
  unfold Schema.bind
  match arguments with
  | [] =>
      rw [bindArguments_nil]
      dsimp only
      rw [complete_eq, lacking?_start required]
      rfl
  | [argument] =>
      rw [bindArguments_alone required single free, onlyValue]
      split_ifs with fits
      · rw [bindNamed]
        dsimp only
        rw [complete_eq, lacking?_filled]
        rfl
      · rfl
  | first :: next :: rest =>
      rw [bindArguments_alone required single free, onlyValue]
      split_ifs with fits
      · have full : boundValues param.key (param.filled first.value).bindings ≠ [] := by
          simp [boundValues_filled]
        rw [bindNamed_alone_eq_error single fun _ => full]
        rfl
      · rfl

end Simple

theorem defaultSeparator_nonempty : defaultSeparator ≠ "" := by
  decide

/-- The parameter of a call that takes one. -/
def soleParam (name : String) (visible : trim name ≠ "") : Simple :=
  {
    name := name
    allowMultiple := false
    separator := defaultSeparator
    choices := none
    presence := .required
    name_visible := visible
    separator_nonempty := defaultSeparator_nonempty
  }

theorem declare_soleParam {name : String} (visible : trim name ≠ "")
    : ({ name := some name, presence := .required } : Draft).declare.result
      = .ok (soleParam name visible) := by
  simp [Draft.declare, visible, defaultSeparator, Choices.ofDatum, soleParam]

/-- What is read back of the value bound to the parameter is that value. -/
theorem value_completed_filled {name : String} (visible : trim name ≠ "") (value : String)
    : (((soleParam name visible).alone.completed id ((soleParam name visible).filled value)).read
          (some name)).value
      = .ok (some value) := by
  have declared : .simple (soleParam name visible) ∈ (soleParam name visible).alone.params :=
    List.mem_singleton_self _
  have key : lower name = (soleParam name visible).key := rfl
  rw [Schema.read_completed declared key, Simple.value_reading rfl,
    Schema.values_at_completed declared, Simple.boundValues_filled]
  rfl

/-- A call for one parameter returns the only value, as it is. -/
theorem bindSingle_eq {name : String} (visible : trim name ≠ "")
    {arguments : List (Option String)} (notUsage : arguments ≠ [some usageRequest])
    : bindSingle (some name) arguments
      = match (soleParam name visible).onlyValue (Argument.ofTexts arguments) with
        | .ok value => .ok (some value)
        | .error cause => .error (.binding cause) := by
  have accepted : Schema.declare [.declared (.simple (soleParam name visible))]
      = .ok (soleParam name visible).alone :=
    Schema.declare_eq_ok_iff.2 rfl
  have result : (bind [.declared (.simple (soleParam name visible))] id arguments).result
      = ((soleParam name visible).alone.bind id (Argument.ofTexts arguments)).result.mapError
          .binding := by
    rw [bind_of_accepted id accepted notUsage]
  unfold bindSingle
  dsimp only
  rw [declare_soleParam visible]
  dsimp only [Except.mapError, Bind.bind, Except.bind]
  rw [result, Simple.bind_alone rfl rfl rfl]
  cases (soleParam name visible).onlyValue (Argument.ofTexts arguments) with
  | error cause => rfl
  | ok value =>
      dsimp only [Except.mapError, Except.map]
      rw [value_completed_filled]

section Calls

variable {arguments : List (Option String)}

/-- A call for one parameter returns a value exactly when there is one argument that fits. -/
theorem bindSingle_eq_ok_iff {name : String} {value? : Option String} (visible : trim name ≠ "")
    (notUsage : arguments ≠ [some usageRequest])
    : bindSingle (some name) arguments = .ok value?
      ↔ ∃ text,
          arguments.reduceOption = [text]
          ∧ (Argument.ofText text).Fits (lower name)
          ∧ value? = some (Argument.ofText text).value := by
  have taken : bindSingle (some name) arguments = .ok value?
      ↔ ∃ value,
          (soleParam name visible).onlyValue (Argument.ofTexts arguments) = .ok value
          ∧ some value = value? := by
    rw [bindSingle_eq visible notUsage]
    cases (soleParam name visible).onlyValue (Argument.ofTexts arguments) <;> simp
  rw [taken, Argument.ofTexts_eq_map_reduceOption]
  simp only [Simple.onlyValue_eq_ok_iff, List.map_eq_singleton_iff]
  constructor
  · rintro ⟨value, ⟨argument, ⟨text, texts, rfl⟩, fits, rfl⟩, rfl⟩
    exact ⟨text, texts, fits, rfl⟩
  · rintro ⟨text, texts, fits, rfl⟩
    exact ⟨_, ⟨_, ⟨text, texts, rfl⟩, fits, rfl⟩, rfl⟩

theorem ofArguments_of_bindSingle {name : String} {e : Error} (visible : trim name ≠ "")
    (notUsage : arguments ≠ [some usageRequest])
    (fails : bindSingle (some name) arguments = .error e)
    : ∃ cause, e = .binding cause ∧ cause.OfArguments := by
  rw [bindSingle_eq visible notUsage] at fails
  cases taken : (soleParam name visible).onlyValue (Argument.ofTexts arguments) with
  | ok value => simp [taken] at fails
  | error cause =>
      rw [taken] at fails
      cases fails
      exact ⟨cause, rfl, Simple.ofArguments_of_onlyValue taken⟩

/-- A call for no parameter stops at the first argument. -/
theorem bindNone_eq (notUsage : arguments ≠ [some usageRequest])
    : bindNone arguments
      = match Argument.ofTexts arguments with
        | [] => .ok ()
        | first :: _ =>
            .error (.binding
              (if first.name = none then
                .ambiguous first.written
              else
                .unexpected first.written)) := by
  have accepted : Schema.declare [] = .ok .empty := Schema.declare_eq_ok_iff.2 rfl
  unfold bindNone
  rw [bind_result_eq id accepted notUsage]
  cases Argument.ofTexts arguments with
  | nil =>
      rw [bindArguments_nil]
      rfl
  | cons first rest =>
      have stays : bindLeading Schema.empty.params (first :: rest) [] = .ok ([], first :: rest) :=
        bindLeading_of_stops [] (by simp [Schema.empty])
      unfold bindArguments
      rw [stays]
      dsimp only
      rw [bindNamed_cons, bindBlock]
      cases first.name with
      | none => rfl
      | some name => rfl

theorem bindNone_eq_ok_iff (notUsage : arguments ≠ [some usageRequest])
    : bindNone arguments = .ok () ↔ ∀ argument ∈ arguments, argument = none := by
  have missing : (∀ argument ∈ arguments, argument = none) ↔ arguments.reduceOption = [] := by
    simp [List.reduceOption]
  rw [missing, bindNone_eq notUsage, Argument.ofTexts_eq_map_reduceOption]
  cases arguments.reduceOption <;> simp

/-- The error of a call for no parameter quotes the first argument that is not missing. -/
theorem bindNone_eq_error {text : String} {more : List String}
    (notUsage : arguments ≠ [some usageRequest]) (texts : arguments.reduceOption = text :: more)
    : bindNone arguments
      = .error (.binding
          (if (Argument.ofText text).name = none then .ambiguous text else .unexpected text)) := by
  rw [bindNone_eq notUsage, Argument.ofTexts_eq_map_reduceOption, texts, List.map_cons]
  dsimp only
  rw [Argument.written_ofText]

end Calls

/-- Unless they are asked for the help, a call for one parameter returns a value exactly when one
argument alone is not missing and it is positional or has the name of the parameter in any case; the
value is that of the argument. A call for no parameter returns exactly when all arguments are
missing. Otherwise both fail by their arguments, and the latter quotes the first that is not
missing. Where no list of arguments is given there are none.
-/
theorem sole_arguments_accepted {name : String} {given : Option (List (Option String))}
    (visible : trim name ≠ "") (notUsage : given ≠ some [some usageRequest])
    : (∀ value?,
        bindSingle (some name) given = .ok value?
        ↔ ∃ arguments ∈ given,
            ∃ text,
              arguments.reduceOption = [text]
              ∧ (Argument.ofText text).Fits (lower name)
              ∧ value? = some (Argument.ofText text).value)
      ∧ ((∀ value?, bindSingle (some name) given ≠ .ok value?)
        → ∃ cause,
            bindSingle (some name) given = .error (.binding cause) ∧ cause.OfArguments)
      ∧ (bindNone given = .ok ()
        ↔ ∀ arguments ∈ given, ∀ argument ∈ arguments, argument = none)
      ∧ ∀ arguments ∈ given,
          ∀ text more,
            arguments.reduceOption = text :: more
            → ∃ cause,
                bindNone given = .error (.binding cause)
                ∧ cause.OfArguments
                ∧ cause.message
                  = (if (Argument.ofText text).name = none then
                      "Unexpected ambiguous argument "
                    else
                      "Unexpected argument ")
                    ++ text := by
  have notUsage : given.getD [] ≠ [some usageRequest] := by
    cases given with
    | none => simp
    | some arguments => simpa using notUsage
  have single : bindSingle (some name) given = bindSingle (some name) (given.getD []) := by
    simp only [bindSingle, bind_getD]
  have none : bindNone given = bindNone (given.getD []) := by
    simp only [bindNone, bind_getD]
  refine ⟨?_, ?_, ?_, ?_⟩
  · intro value?
    rw [single, bindSingle_eq_ok_iff visible notUsage]
    cases given <;> simp
  · intro fails
    cases result : bindSingle (some name) given with
    | ok value? => exact (fails value? result).elim
    | error e =>
        rw [single] at result
        obtain ⟨cause, rfl, ofArguments⟩ := ofArguments_of_bindSingle visible notUsage result
        exact ⟨cause, rfl, ofArguments⟩
  · rw [none, bindNone_eq_ok_iff notUsage]
    cases given <;> simp
  · rintro arguments rfl text more texts
    refine ⟨_, bindNone_eq_error notUsage texts, ?_⟩
    split_ifs with positional
    · exact ⟨trivial, rfl⟩
    · exact ⟨trivial, rfl⟩

/-- An account that is named in another case is taken, and quoted where no argument is allowed. Two
accounts are refused. Without a list of arguments there is none.
-/
theorem account_taken_alone
    : trim "account" ≠ ""
      ∧ some [none, some "ACCOUNT: main"] ≠ some [some usageRequest]
      ∧ some [some "main", some "spare"] ≠ some [some usageRequest]
      ∧ bindSingle (some "account") (some [none, some "ACCOUNT: main"]) = .ok (some "main")
      ∧ (∃ cause,
          bindNone (some [none, some "ACCOUNT: main"]) = .error (.binding cause)
          ∧ cause.message = "Unexpected argument ACCOUNT: main")
      ∧ (∃ cause,
          bindSingle (some "account") (some [some "main", some "spare"])
            = .error (.binding cause)
          ∧ cause.OfArguments)
      ∧ bindNone none = .ok () := by
  have visible : trim "account" ≠ "" := by decide
  have notUsage : some [none, some "ACCOUNT: main"] ≠ some [some usageRequest] := by decide
  have notUsageOfTwo : some [some "main", some "spare"] ≠ some [some usageRequest] := by decide
  obtain ⟨taken, -, -, quoted⟩ := sole_arguments_accepted visible notUsage
  obtain ⟨takenOfTwo, refused, -⟩ := sole_arguments_accepted visible notUsageOfTwo
  obtain ⟨-, -, allowed, -⟩ := sole_arguments_accepted visible (Option.some_ne_none _).symm
  refine ⟨visible, notUsage, notUsageOfTwo, (taken _).2 ?_, ?_, refused ?_, allowed.2 (by simp)⟩
  · exact ⟨_, rfl, "ACCOUNT: main", rfl, by decide, by decide⟩
  · obtain ⟨cause, fails, -, message⟩ := quoted _ rfl "ACCOUNT: main" [] rfl
    exact ⟨cause, fails, message.trans (by decide)⟩
  · intro value? isTaken
    obtain ⟨arguments, isGiven, text, texts, -⟩ := (takenOfTwo value?).1 isTaken
    cases Option.mem_some_iff.1 isGiven
    cases texts

end ArgBinding
