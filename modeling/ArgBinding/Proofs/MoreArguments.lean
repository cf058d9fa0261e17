import ArgBinding.Proofs.MissingMembers

/-! More arguments behind those of a call. A block that was ended by an argument stays as it is, and
one that came to the end of the arguments may go on; so an error in an argument stays, and more
arguments help a call only where a value was missing.
-/

namespace ArgBinding

open ArgBinding.Text

-----------------------------------------------------------------------------------------
-- What goes on with a first argument
-----------------------------------------------------------------------------------------

namespace Simple

variable {param : Simple} {rest : List Argument}

theorem length_continuation_le (param : Simple) (rest : List Argument)
    : (param.continuation rest).length ≤ rest.length := by
  have split := congrArg List.length (param.continuation_append_drop rest)
  rw [List.length_append] at split
  omega

/-- A plain parameter that was ended by an argument does not go on with more of them. -/
theorem continuation_append_of_left (more : List Argument)
    (left : rest.drop (param.continuation rest).length ≠ [])
    : param.continuation (rest ++ more) = param.continuation rest := by
  have split := param.continuation_append_drop rest
  obtain ⟨fits, stops⟩ := continuation_eq_iff.1 (congrArg param.continuation split)
  conv_lhs => rw [← split, List.append_assoc]
  refine continuation_eq_iff.2 ⟨fits, ?_⟩
  rwa [List.head?_append_of_ne_nil _ left]

theorem continuation_of_end (ended : rest.drop (param.continuation rest).length = [])
    : param.continuation rest = rest := by
  simpa [ended] using param.continuation_append_drop rest

/-- A plain parameter that was not ended goes on with more arguments as with those in front. -/
theorem continuation_append_of_end (more : List Argument)
    (ended : rest.drop (param.continuation rest).length = [])
    : param.continuation (rest ++ more) = rest ++ param.continuation more := by
  have whole : param.continuation (rest ++ []) = rest := by
    rw [List.append_nil, continuation_of_end ended]
  have split := param.continuation_append_drop more
  obtain ⟨fits, -⟩ := continuation_eq_iff.1 whole
  obtain ⟨fitsMore, stops⟩ := continuation_eq_iff.1 (congrArg param.continuation split)
  conv_lhs => rw [← split, ← List.append_assoc]
  exact continuation_eq_iff.2 ⟨List.forall_mem_append.2 ⟨fits, fitsMore⟩, stops⟩

theorem continuation_prefix_append (param : Simple) (rest more : List Argument)
    : param.continuation rest <+: param.continuation (rest ++ more) := by
  by_cases ended : rest.drop (param.continuation rest).length = []
  · rw [continuation_append_of_end more ended, continuation_of_end ended]
    exact List.prefix_append _ _
  · simp only [continuation_append_of_left more ended, List.prefix_rfl]

end Simple

namespace Group

theorem continuationFrom_prefix_append (group : Group) (bound : List String)
    (rest more : List Argument)
    : group.continuationFrom bound rest <+: group.continuationFrom bound (rest ++ more) := by
  induction rest generalizing bound with
  | nil => exact List.nil_prefix
  | cons argument rest ih =>
      simp only [List.cons_append, continuationFrom]
      split
      · exact List.prefix_rfl
      · split
        · exact List.prefix_rfl
        · exact List.cons_prefix_cons.2 ⟨rfl, ih _⟩

/-- A repetition that was ended by an argument does not go on with more of them, by induction on the
arguments.
-/
theorem continuationFrom_append_of_left {group : Group} {bound : List String}
    {rest : List Argument} (more : List Argument)
    (left : rest.drop (group.continuationFrom bound rest).length ≠ [])
    : group.continuationFrom bound (rest ++ more) = group.continuationFrom bound rest := by
  induction rest generalizing bound with
  | nil => simp at left
  | cons argument rest ih =>
      simp only [List.cons_append, continuationFrom] at left ⊢
      split
      · rfl
      · rename_i param found
        split
        · rfl
        · rename_i goesOn
          simp only [found, if_neg goesOn, List.length_cons, List.drop_succ_cons] at left
          rw [ih left]

end Group

-----------------------------------------------------------------------------------------
-- Errors that stay
-----------------------------------------------------------------------------------------

theorem bindAssigned_eq_error_of_front {earlier whole : List Assignment} {bound : List Binding}
    {e : BindingError} (isFront : earlier <+: whole)
    (fails : bindAssigned earlier bound = .error e)
    : bindAssigned whole bound = .error e := by
  obtain ⟨later, rfl⟩ := isFront
  rw [bindAssigned_append, fails]
  rfl

/-- An error of the walk over the leading parameters stays when more arguments come behind, by
induction on the walk. As long as the walk is to fail later, an argument is left behind each
parameter that it passes, so each takes what it took.
-/
theorem bindLeading_append_eq_error {params : List Param} {arguments : List Argument}
    {bound : List Binding} {e : BindingError} (more : List Argument)
    (fails : bindLeading params arguments bound = .error e)
    : bindLeading params (arguments ++ more) bound = .error e := by
  fun_induction bindLeading params arguments bound with
  | case1 param params first rest bound takes following error failed =>
      cases fails
      have isFront := (param.continuation_prefix_append rest more).map (param, ·)
      have fails := @bindAssigned_eq_error_of_front _ _ bound _
        (List.cons_prefix_cons.2 ⟨rfl, isFront⟩) failed
      rw [List.cons_append, bindLeading, if_pos takes]
      simp only [List.map_cons, fails]
  | case2 param params first rest bound takes following reached isBound ih =>
      have left : rest.drop following.length ≠ [] := by
        intro none
        rw [none, bindLeading_nil] at fails
        cases fails
      rw [List.cons_append, bindLeading, if_pos takes]
      simp only [Simple.continuation_append_of_left more left]
      rw [isBound]
      dsimp only
      rw [List.drop_append_of_le_length (param.length_continuation_le rest)]
      exact ih fails
  | case3 => cases fails
  | case4 => cases fails

theorem Group.not_inArgument_of_settleAll {group : Group} {bindings : List Binding}
    {e : BindingError}
    (fails : settleAll (.ofMissingMember group.name) bindings group.params = .error e)
    : ¬ e.InArgument := by
  rw [settleAll_eq] at fails
  split at fails
  · cases fails
    exact BindingError.not_inArgument_ofMissingMember _ _
  · cases fails

/-- An error in an argument of a repetition, or in the one behind it, stays. Where no argument was
left behind the repetition, the error is in one of its own.
-/
theorem Group.bindRepetition_append_eq_error {group : Group} {first : Argument}
    {rest : List Argument} {e : BindingError} (more : List Argument) (inArgument : e.InArgument)
    (fails
      : group.bindRepetition ((group.identity, first) :: group.continuation rest)
          (rest.drop (group.continuation rest).length).head?
        = .error e)
    : group.bindRepetition ((group.identity, first) :: group.continuation (rest ++ more))
        ((rest ++ more).drop (group.continuation (rest ++ more)).length).head?
      = .error e := by
  by_cases left : rest.drop (group.continuation rest).length = []
  · rw [left, bindRepetition_of_named (by simp), except_bind_eq_error_iff] at fails
    rcases fails with failed | ⟨bindings, -, unsettled⟩
    · have isFront : group.continuation rest <+: group.continuation (rest ++ more) :=
        group.continuationFrom_prefix_append [group.identity.key] rest more
      unfold bindRepetition
      rw [bindAssigned_eq_error_of_front (List.cons_prefix_cons.2 ⟨rfl, isFront⟩) failed]
      rfl
    · exact absurd inArgument (not_inArgument_of_settleAll unsettled)
  · have same : group.continuation (rest ++ more) = group.continuation rest :=
      continuationFrom_append_of_left more left
    rwa [same, List.drop_append_of_le_length (Nat.le_of_lt (List.length_lt_of_drop_ne_nil left)),
      List.head?_append_of_ne_nil _ left]

/-- An error in an argument that is bound by name stays. -/
theorem bindBlock_append_eq_error {schema : Schema} {progress : Progress} {first : Argument}
    {rest : List Argument} {e : BindingError} (more : List Argument) (inArgument : e.InArgument)
    (fails : bindBlock schema progress first rest = .error e)
    : bindBlock schema progress first (rest ++ more) = .error e := by
  rcases schema.names_cases first with unknown | ⟨param, declared, names⟩ | ⟨group, declared, names⟩
  · rwa [bindBlock_of_unknown unknown] at fails ⊢
  · rw [bindBlock_of_simple declared names, except_map_eq_error_iff] at fails ⊢
    have isFront := (param.continuation_prefix_append rest more).map (param, ·)
    exact bindAssigned_eq_error_of_front (List.cons_prefix_cons.2 ⟨rfl, isFront⟩) fails
  · rw [bindBlock_of_repeating declared names, except_map_eq_error_iff] at fails ⊢
    exact Group.bindRepetition_append_eq_error more inArgument fails

/-- An error in an argument stays when more arguments come behind. -/
theorem bindArguments_append_eq_error {schema : Schema} {arguments : List Argument} {halt : Halt}
    (more : List Argument) (inArgument : halt.error.InArgument)
    (fails : bindArguments schema arguments = .error halt)
    : ∃ later,
        bindArguments schema (arguments ++ more) = .error later ∧ later.error = halt.error := by
  rcases exists_partialCut_of_bindArguments_eq_error fails with walk | ⟨leading, named, first, rest,
    cut, run, failed⟩
  · unfold bindArguments
    rw [bindLeading_append_eq_error more walk]
    exact ⟨_, rfl, rfl⟩
  · rw [bindArguments_of_partialCut (cut.append more) run, List.cons_append, bindNamed_cons,
      bindBlock_append_eq_error more inArgument failed]
    exact ⟨_, rfl, rfl⟩

/-- A repetition that was ended by an argument stays without a value. -/
theorem Schema.EndsWithout.append {schema : Schema} {arguments behind : List Argument}
    {next : Argument} {group : Group} {member : Simple}
    (ends : schema.EndsWithout arguments (next :: behind) group member) (more : List Argument)
    : schema.EndsWithout (arguments ++ more) (next :: behind ++ more) group member := by
  obtain ⟨leading, named, block, cut, bindable, lacks⟩ := ends
  exact ⟨leading, named, block, cut.append more, bindable, lacks⟩

-----------------------------------------------------------------------------------------
-- Calls
-----------------------------------------------------------------------------------------

theorem Argument.ofTexts_append (texts more : List (Option String))
    : ofTexts (texts ++ more) = ofTexts texts ++ ofTexts more :=
  List.filterMap_append

theorem bindArguments_nil (schema : Schema) : bindArguments schema [] = .ok .start := by
  unfold bindArguments
  rw [bindLeading_nil]
  exact bindNamed.eq_1 schema .start

/-- Arguments that cannot be bound do not ask for the help together with more of them. -/
theorem append_ne_usage {schema : Schema} {arguments more : List (Option String)} {halt : Halt}
    (fails : bindArguments schema (Argument.ofTexts arguments) = .error halt)
    (longer : arguments ≠ [some usageRequest] ∨ more ≠ [])
    : arguments ++ more ≠ [some usageRequest] := by
  intro usage
  rcases List.append_eq_singleton_iff.1 usage with ⟨rfl, -⟩ | ⟨same, none⟩
  · cases (bindArguments_nil schema).symm.trans fails
  · exact longer.elim (fun notUsage => notUsage same) fun nonempty => nonempty none

/-- A call whose arguments cannot be bound does not come to ask for the help by more arguments, so
it fails as binding them all does.
-/
theorem bind_append_eq_error {entries : List Entry} {schema : Schema}
    {arguments more : List (Option String)} {halt later : Halt} (replacer : Replacer)
    (accepted : Schema.declare entries = .ok schema) (notUsage : arguments ≠ [some usageRequest])
    (fails : bindArguments schema (Argument.ofTexts arguments) = .error halt)
    (stays
      : bindArguments schema (Argument.ofTexts arguments ++ Argument.ofTexts more) = .error later)
    : (bind entries replacer (some (arguments ++ more))).result
      = .error (.binding later.error) := by
  rw [bind_result_eq replacer accepted (append_ne_usage fails (Or.inl notUsage)),
    Argument.ofTexts_append, stays]

/-- On accepted declarations, a call that fails on an argument fails alike when more arguments come
behind. So where a call succeeds with more arguments, it succeeds without them, or it asks for the
help, or a required value is missing at the end of the arguments: one of a declared parameter, or
one of a member in the repetition that is open there.
-/
theorem bind_append {entries : List Entry} {schema : Schema}
    {arguments more : List (Option String)} (replacer : Replacer)
    (accepted : Schema.declare entries = .ok schema)
    : (∀ cause : BindingError,
        cause.InArgument
        → (bind entries replacer arguments).result = .error (.binding cause)
        → (bind entries replacer (some (arguments ++ more))).result = .error (.binding cause))
      ∧ ((∃ bound, (bind entries replacer (some (arguments ++ more))).result = .ok bound)
        → (∃ bound, (bind entries replacer arguments).result = .ok bound)
          ∨ arguments = [some usageRequest]
          ∨ (∃ progress param,
              bindArguments schema (Argument.ofTexts arguments) = .ok progress
              ∧ schema.lacking? progress = some param
              ∧ (bind entries replacer arguments).result
                = .error (.binding (.missing param.name)))
          ∨ ∃ group member,
              schema.EndsWithout (Argument.ofTexts arguments) [] group member
              ∧ (bind entries replacer arguments).result
                = .error (.binding (.ofMissingMember group.name member.name))) := by
  by_cases usage : arguments = [some usageRequest]
  · refine ⟨?_, fun _ => Or.inr (Or.inl usage)⟩
    intro cause _ fails
    simp [bind, usage] at fails
  rw [bind_result_eq replacer accepted usage]
  cases run : bindArguments schema (Argument.ofTexts arguments) with
  | ok progress =>
      dsimp only
      cases lacking : schema.lacking? progress with
      | none =>
          refine ⟨?_, fun _ => Or.inl ⟨_, rfl⟩⟩
          intro cause _ fails
          cases fails
      | some param =>
          refine ⟨?_, ?_⟩
          · intro cause inArgument fails
            cases fails
            exact absurd inArgument not_false
          · exact fun _ => Or.inr (Or.inr (Or.inl ⟨progress, param, rfl, lacking, rfl⟩))
  | error halt =>
      dsimp only
      -- Used for both halves: an error in an argument also excludes success with more arguments.
      have stays (inArgument : halt.error.InArgument)
          : (bind entries replacer (some (arguments ++ more))).result
            = .error (.binding halt.error) := by
        obtain ⟨later, runMore, same⟩ :=
          bindArguments_append_eq_error (Argument.ofTexts more) inArgument run
        rw [bind_append_eq_error replacer accepted usage run runMore, same]
      constructor
      · intro cause inArgument fails
        cases fails
        exact stays inArgument
      · intro h
        obtain ⟨bound, isBound⟩ := h
        rcases bindArguments_error_cases run with inArgument | ⟨behind, group, member, ends, same⟩
        · cases (stays inArgument).symm.trans isBound
        · cases behind with
          | nil => exact Or.inr (Or.inr (Or.inr ⟨group, member, ends, by rw [same]⟩))
          | cons next behind =>
              obtain ⟨later, runMore, -⟩ :=
                bindArguments_of_endsWithout (ends.append (Argument.ofTexts more))
              cases (bind_append_eq_error replacer accepted usage run runMore).symm.trans isBound

/-- A positional text behind an ask with its symbol stays ambiguous. An ask without its symbol is
only open: it succeeds with the symbol behind it.
-/
theorem ask_with_more
    : Schema.declare Quote.entries = .ok Quote.schema
      ∧ (BindingError.ambiguous "Y").InArgument
      ∧ (bind Quote.entries id [some "ask: 1", some "symbol: X", some "Y"]).result
        = .error (.binding (.ambiguous "Y"))
      ∧ (bind Quote.entries id
            (some ([some "ask: 1", some "symbol: X", some "Y"] ++ [some "gain %: 2"]))).result
        = .error (.binding (.ambiguous "Y"))
      ∧ (∃ bound,
          (bind Quote.entries id (some ([some "ask: 1"] ++ [some "symbol: X"]))).result = .ok bound)
      ∧ ∃ group member,
          Quote.schema.EndsWithout (Argument.ofTexts [some "ask: 1"]) [] group member
          ∧ (bind Quote.entries id [some "ask: 1"]).result
            = .error (.binding (.ofMissingMember group.name member.name)) := by
  have ambiguous : (bind Quote.entries id [some "ask: 1", some "symbol: X", some "Y"]).result
      = .error (.binding (.ambiguous "Y")) := by decide +kernel
  have isBound : ∃ bound,
      (bind Quote.entries id (some ([some "ask: 1"] ++ [some "symbol: X"]))).result = .ok bound :=
    exists_eq_ok_of_isSome (by decide +kernel)
  have opened : (bind Quote.entries id [some "ask: 1"]).result
      = .error (.binding (.missingMember "symbol" "ask")) := by decide +kernel
  refine ⟨Quote.declare_entries, trivial, ambiguous,
    (bind_append id Quote.declare_entries).1 _ trivial ambiguous, isBound, ?_⟩
  rcases (bind_append id Quote.declare_entries).2 isBound with ⟨bound, isBound⟩ | usage
    | ⟨progress, param, -, -, lacking⟩ | ends
  · cases isBound.symm.trans opened
  · exact absurd usage (by decide)
  · cases lacking.symm.trans opened
  · exact ends

end ArgBinding
