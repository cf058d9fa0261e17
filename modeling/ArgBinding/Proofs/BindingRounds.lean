import ArgBinding.Proofs.NumberedRecords
import ArgBinding.Proofs.Runs

/-! The rounds of binding by name. A parameter takes arguments in a loop that may take none; as a
name means a parameter that has its key, the loop takes at least the argument that names the
parameter. So each round leaves fewer arguments, in their order, and the rounds come to an end.
-/

namespace ArgBinding

open ArgBinding.Text

/-- The stages of binding by name in a run on some arguments, each with the number of rounds before
it, the progress and the arguments that are left: first that which the walk over the leading
parameters leaves, then one behind each round.
-/
inductive Schema.Stage (schema : Schema) (arguments : List Argument)
    : Nat → Progress → List Argument → Prop where
  | walked {bindings : List Binding} {queue : List Argument}
      (walk : bindLeading schema.params arguments [] = .ok (bindings, queue))
      : schema.Stage arguments 0 { Progress.start with bindings := bindings } queue
  | bound {rounds : Nat} {progress next : Progress} {first : Argument}
      {rest remaining : List Argument}
      (reached : schema.Stage arguments rounds progress (first :: rest))
      (round : bindBlock schema progress first rest = .ok (next, remaining))
      : schema.Stage arguments (rounds + 1) next remaining

namespace Schema.Stage

variable {schema : Schema} {arguments queue : List Argument} {rounds : Nat} {progress : Progress}

/-- The arguments that are left are the last of all arguments, by induction on the rounds. -/
theorem suffix (stage : schema.Stage arguments rounds progress queue) : queue <:+ arguments := by
  induction stage with
  | walked walk =>
      obtain ⟨leading, -, -, whole, -⟩ := (bindLeading_eq_ok_iff .start).1 walk
      exact ⟨_, whole⟩
  | bound reached round ih =>
      obtain ⟨name, param, -, -, whole⟩ := taken_append_of_bindBlock round
      exact List.IsSuffix.trans ⟨_, whole⟩ ih

/-- Each round leaves at least one argument less, so there are no more rounds than arguments that
are not left. Induction on the rounds.
-/
theorem rounds_add_length_le (stage : schema.Stage arguments rounds progress queue)
    : rounds + queue.length ≤ arguments.length := by
  induction stage with
  | walked walk =>
      rw [Nat.zero_add]
      exact (walked walk).suffix.length_le
  | bound reached round ih =>
      have fewer := length_bindBlock round
      rw [List.length_cons] at ih
      omega

/-- From each stage the rounds come to a last one, at which no argument is left or binding fails; it
decides how binding by name ends. Induction on the run.
-/
theorem exists_last (stage : schema.Stage arguments rounds progress queue)
    : ∃ last reached left,
        schema.Stage arguments last reached left
        ∧ (left = [] ∧ bindNamed schema progress queue = .ok reached
          ∨ ∃ first rest e,
              left = first :: rest
              ∧ bindBlock schema reached first rest = .error e
              ∧ bindNamed schema progress queue = .error { error := e, progress := reached }) := by
  fun_induction bindNamed schema progress queue generalizing rounds with
  | case1 progress => exact ⟨rounds, progress, [], stage, Or.inl ⟨rfl, rfl⟩⟩
  | case2 progress first rest e failed =>
      exact ⟨rounds, progress, first :: rest, stage, Or.inr ⟨first, rest, e, rfl, failed, rfl⟩⟩
  | case3 progress first rest next remaining round ih => exact ih (stage.bound round)

end Schema.Stage

/-- At each stage of binding by name, in a call that does not ask for the help on accepted
declarations, the arguments that are left are the last of all, and they are as many fewer as there
were rounds at least. The parameter that the first of them names takes this one at least, and a
round that succeeds removes what it takes from the front and leaves the others as they are. So the
call fails in the walk over the leading parameters, or there is a last stage, at which no argument
is left or binding fails, after at most as many rounds as there are arguments that are not missing.
Witness: a name means a parameter that has its key.
-/
theorem bind_rounds_end {entries : List Entry} {schema : Schema}
    {arguments : List (Option String)} (replacer : Replacer)
    (accepted : Schema.declare entries = .ok schema) (notUsage : arguments ≠ [some usageRequest])
    : (∀ rounds progress queue,
        schema.Stage (Argument.ofTexts arguments) rounds progress queue
        → rounds + queue.length ≤ arguments.countP Option.isSome
          ∧ queue <:+ Argument.ofTexts arguments
          ∧ ∀ first rest,
              queue = first :: rest
              → (∀ name param,
                  first.name = some name
                  → schema.find? name = some param
                  → ∃ more, param.taken queue = first :: more)
                ∧ ∀ next remaining,
                    bindBlock schema progress first rest = .ok (next, remaining)
                    → ∃ name param,
                        first.name = some name
                        ∧ schema.find? name = some param
                        ∧ param.taken queue ++ remaining = queue)
      ∧ ((∃ e,
          bindLeading schema.params (Argument.ofTexts arguments) [] = .error e
          ∧ (bind entries replacer arguments).result = .error (.binding e))
        ∨ ∃ rounds progress left,
            rounds ≤ arguments.countP Option.isSome
            ∧ schema.Stage (Argument.ofTexts arguments) rounds progress left
            ∧ (left = []
                ∧ (bind entries replacer arguments).result
                  = (complete schema replacer progress).mapError .binding
              ∨ ∃ first rest e,
                  left = first :: rest
                  ∧ bindBlock schema progress first rest = .error e
                  ∧ (bind entries replacer arguments).result = .error (.binding e))) := by
  rw [← Argument.length_ofTexts]
  constructor
  · intro rounds progress queue stage
    refine ⟨stage.rounds_add_length_le, stage.suffix, ?_⟩
    rintro first rest rfl
    exact ⟨fun name param named found => Schema.exists_taken_eq_cons named found rest,
      fun next remaining round => taken_append_of_bindBlock round⟩
  · rw [bind_of_accepted replacer accepted notUsage]
    dsimp only [Schema.bind]
    unfold bindArguments
    cases walk : bindLeading schema.params (Argument.ofTexts arguments) [] with
    | error e => exact Or.inl ⟨e, rfl, rfl⟩
    | ok reached =>
        obtain ⟨bindings, queue⟩ := reached
        obtain ⟨rounds, progress, left, stage, ends⟩ := (Schema.Stage.walked walk).exists_last
        have rounds_le := stage.rounds_add_length_le
        refine Or.inr ⟨rounds, progress, left, by omega, stage, ?_⟩
        rcases ends with ⟨none, run⟩ | ⟨first, rest, e, some, failed, run⟩
        · exact Or.inl ⟨none, by simp only [run]⟩
        · refine Or.inr ⟨first, rest, e, some, failed, ?_⟩
          simp only [run]
          rfl

/-- In the first round by name the group takes the first fill of a trade with its price and leaves
the other fill. Two of the five arguments were left to the walk, so there are three rounds at most.
-/
theorem trade_rounds_end
    : Schema.declare Trade.entries = .ok Trade.schema
      ∧ Trade.bareArguments ++ [none, some "fill: 1", some "price: 2", some "fill: 3"]
        ≠ [some usageRequest]
      ∧ ∃ start next,
          Trade.schema.Stage
            (Argument.ofTexts
              (Trade.bareArguments ++ [none, some "fill: 1", some "price: 2", some "fill: 3"]))
            0 start (Argument.ofTexts [some "fill: 1", some "price: 2", some "fill: 3"])
          ∧ bindBlock Trade.schema start (Argument.ofText "fill: 1")
              (Argument.ofTexts [some "price: 2", some "fill: 3"])
            = .ok (next, Argument.ofTexts [some "fill: 3"])
          ∧ (∃ more,
              (Param.repeating Trade.fills).taken
                (Argument.ofTexts [some "fill: 1", some "price: 2", some "fill: 3"])
              = Argument.ofText "fill: 1" :: more)
          ∧ ∃ name param,
              (Argument.ofText "fill: 1").name = some name
              ∧ Trade.schema.find? name = some param
              ∧ param.taken (Argument.ofTexts [some "fill: 1", some "price: 2", some "fill: 3"])
                  ++ Argument.ofTexts [some "fill: 3"]
                = Argument.ofTexts [some "fill: 1", some "price: 2", some "fill: 3"] := by
  have notUsage : Trade.bareArguments ++ [none, some "fill: 1", some "price: 2", some "fill: 3"]
      ≠ [some usageRequest] := by decide
  let start : Progress :=
    {
      bindings :=
        [{ param := Trade.account, value := "joe" }, { param := Trade.side, value := "BUY" }]
      repetitions := []
    }
  have stage : Trade.schema.Stage
      (Argument.ofTexts
        (Trade.bareArguments ++ [none, some "fill: 1", some "price: 2", some "fill: 3"]))
      0 start (Argument.ofTexts [some "fill: 1", some "price: 2", some "fill: 3"]) :=
    .walked (by decide +kernel)
  obtain ⟨⟨next, left⟩, round, rfl⟩ : ∃ value,
      bindBlock Trade.schema start (Argument.ofText "fill: 1")
          (Argument.ofTexts [some "price: 2", some "fill: 3"])
        = .ok value
      ∧ value.2 = Argument.ofTexts [some "fill: 3"] :=
    exists_eq_ok_of_map_toOption (by decide +kernel)
  obtain ⟨stages, -⟩ := bind_rounds_end id Trade.declare_entries notUsage
  obtain ⟨takes, leaves⟩ := (stages _ _ _ stage).2.2 _ _ rfl
  refine ⟨Trade.declare_entries, notUsage, start, next, stage, round, ?_, leaves _ _ round⟩
  exact takes "fill" _ (by decide +kernel) (by decide +kernel)

end ArgBinding
