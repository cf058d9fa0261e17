import ArgBinding.Proofs.MoreArguments
import ArgBinding.Proofs.Rendering

/-! Required values that are supplied later. A call reports what is missing only when all its
arguments are bound, and it reports the first declared parameter that lacks a value. One more
argument that supplies it is bound behind all others, so that only parameters declared later can be
missing then.
-/

namespace ArgBinding

open ArgBinding.Text

/-- The argument means a plain parameter wherever it stands: it names that and no member of a group.
-/
structure Schema.Reaches (schema : Schema) (next : Argument) (owner : Simple) : Prop where
  declared : .simple owner ∈ schema.params
  names : next.Names owner.key
  apart
    : ∀ group,
        .repeating group ∈ schema.params
        → ∀ member ∈ group.params, ¬ next.Names member.key

namespace Schema.Reaches

variable {schema : Schema} {next : Argument} {owner param : Simple}

theorem eq_of_fits (reaches : schema.Reaches next owner) (declared : .simple param ∈ schema.params)
    (fits : next.Fits param.key)
    : param = owner := by
  have names := fits.resolve_left reaches.names.name_ne_none
  exact Param.simple.inj
    (Schema.eq_of_key declared reaches.declared (names.unique reaches.names))

theorem owns (reaches : schema.Reaches next owner) : schema.Owns ⟨.simple owner, next, []⟩ :=
  ⟨reaches.declared, reaches.names⟩

/-- A block goes on with the argument only if it is one of the same parameter, which takes several
values.
-/
theorem stopsBefore_or (reaches : schema.Reaches next owner) {block : Block}
    (declared : block.param ∈ schema.params)
    : block.StopsBefore next ∨ block.param = .simple owner ∧ owner.allowMultiple = true := by
  obtain ⟨param, first, following⟩ := block
  cases param with
  | repeating group =>
      refine Or.inl ⟨reaches.names.name_ne_none, ?_⟩
      intro member isMember names
      exact absurd names (reaches.apart group declared member isMember)
  | simple param =>
      by_cases goesOn : param.allowMultiple = true ∧ next.Fits param.key
      · obtain ⟨several, fits⟩ := goesOn
        obtain rfl := reaches.eq_of_fits declared fits
        exact Or.inr ⟨rfl, several⟩
      · exact Or.inl fun several fits => goesOn ⟨several, fits⟩

end Schema.Reaches

-----------------------------------------------------------------------------------------
-- One more argument behind a run
-----------------------------------------------------------------------------------------

/-- A plain parameter does not go on with one more argument unless it went on with all in front. -/
theorem Simple.continuation_snoc (param : Simple) (rest : List Argument) (next : Argument)
    : param.continuation (rest ++ [next]) = param.continuation rest
      ∨ next.Fits param.key
        ∧ param.continuation rest = rest
        ∧ param.continuation (rest ++ [next]) = rest ++ [next] := by
  by_cases ended : rest.drop (param.continuation rest).length = []
  · have whole := continuation_of_end ended
    rw [continuation_append_of_end [next] ended, whole]
    by_cases goesOn : param.allowMultiple = true ∧ param.takes next = true
    · refine Or.inr ⟨(param.takes_iff_fits next).1 goesOn.2, rfl, ?_⟩
      simp [continuation, goesOn]
    · have none : param.continuation [next] = [] := by
        unfold continuation
        split
        · rename_i several
          exact List.takeWhile_cons_of_neg fun takes => goesOn ⟨several, takes⟩
        · rfl
      exact Or.inl (by rw [none, List.append_nil])
  · exact Or.inl (continuation_append_of_left [next] ended)

theorem bindAssigned_singleton (assignment : Assignment) (bound : List Binding)
    : bindAssigned [assignment] bound = assignment.1.bindText assignment.2.value bound := by
  rw [bindAssigned_cons]
  cases assignment.1.bindText assignment.2.value bound <;> rfl

/-- The walk comes to its end at a required parameter that fits all arguments. -/
theorem bindLeading_of_whole {param : Simple} {params : List Param} {first : Argument}
    {rest : List Argument} {bound : List Binding} (required : param.isRequired = true)
    (fits : first.Fits param.key) (whole : param.continuation rest = rest)
    : bindLeading (.simple param :: params) (first :: rest) bound
      = (bindAssigned ((first :: rest).map (param, ·)) bound).map (·, []) := by
  rw [bindLeading_of_fits required fits, whole, List.drop_length]
  cases bindAssigned ((first :: rest).map (param, ·)) bound with
  | error e => rfl
  | ok bindings => exact bindLeading_nil params bindings

/-- One more argument behind a walk over the leading parameters is left, or the walk has come to the
end of the arguments and binds it to the parameter that it names. Induction on the parameters.
-/
theorem bindLeading_snoc {params : List Param} {arguments rest : List Argument} {next : Argument}
    {bound bindings : List Binding} {owner : Simple}
    (only : ∀ param, .simple param ∈ params → next.Fits param.key → param = owner)
    (walk : bindLeading params arguments bound = .ok (bindings, rest))
    : bindLeading params (arguments ++ [next]) bound = .ok (bindings, rest ++ [next])
      ∨ rest = []
        ∧ bindLeading params (arguments ++ [next]) bound
          = (owner.bindText next.value bindings).map (·, []) := by
  induction params generalizing arguments bound with
  | nil =>
      rw [bindLeading_of_stops _ (by simp)] at walk ⊢
      cases walk
      exact Or.inl rfl
  | cons param params ih =>
      by_cases stops
        : ∀ first ∈ (arguments ++ [next]).head?,
            param.isRequired = true → ¬ first.Fits param.key
      · have stopsEarlier : ∀ first ∈ arguments.head?,
            param.isRequired = true → ¬ first.Fits param.key := by
          intro first isFirst
          exact stops first (by rw [List.head?_append, isFirst]; rfl)
        rw [bindLeading_of_stops _ (by simpa using stopsEarlier)] at walk
        cases walk
        exact Or.inl (bindLeading_of_stops _ (by simpa using stops))
      · simp only [not_forall, not_not] at stops
        obtain ⟨first, isFirst, required, fits⟩ := stops
        cases param with
        | repeating group => simp [Param.isRequired] at required
        | simple param =>
            cases arguments with
            | nil =>
                obtain rfl : next = first := by simpa using isFirst
                obtain rfl := only param (by simp) fits
                rw [bindLeading_nil] at walk
                cases walk
                have whole : param.continuation [] = [] := by simp [Simple.continuation]
                refine Or.inr ⟨rfl, ?_⟩
                rw [List.nil_append, bindLeading_of_whole required fits whole, List.map_singleton,
                  bindAssigned_singleton]
            | cons start behind =>
                obtain rfl : start = first := by simpa using isFirst
                -- Either the parameter takes what it took, or the walk ends here with the argument.
                rcases param.continuation_snoc behind next with same | ⟨fitsNext, whole, wholeNext⟩
                · rw [bindLeading_of_fits required fits, except_bind_eq_ok_iff] at walk
                  obtain ⟨reached, isBound, walk⟩ := walk
                  rw [List.cons_append, bindLeading_of_fits required fits, same, isBound,
                    List.drop_append_of_le_length (param.length_continuation_le behind)]
                  exact ih (fun other member => only other (List.mem_cons_of_mem _ member)) walk
                · obtain rfl := only param (by simp) fitsNext
                  rw [bindLeading_of_whole required fits whole, except_map_eq_ok_iff] at walk
                  obtain ⟨reached, isBound, same⟩ := walk
                  cases same
                  refine Or.inr ⟨rfl, ?_⟩
                  rw [List.cons_append, bindLeading_of_whole required fits wholeNext,
                    ← List.cons_append, List.map_append, bindAssigned_append, isBound]
                  exact congrArg (Except.map (·, []))
                    (bindAssigned_singleton (param, next) bindings)

section Snoc

variable {schema : Schema} {progress last : Progress} {next : Argument} {owner : Simple}
  {bindings : List Binding}

theorem bindTo_single (isBound : owner.bindText next.value last.bindings = .ok bindings)
    : (Block.mk (.simple owner) next []).bindTo last = .ok { last with bindings := bindings } := by
  simp only [Block.bindTo, Block.assignments, Block.arguments, List.map_singleton,
    bindAssigned_singleton, isBound, Except.map]

theorem bindNamed_single (reaches : schema.Reaches next owner)
    (isBound : owner.bindText next.value last.bindings = .ok bindings)
    : bindNamed schema last [next] = .ok { last with bindings := bindings } := by
  have taken := @bindNamed_of_cut schema _ [] last reaches.owns ⟨by simp [Block.Shaped], by simp⟩
  simp only [Block.arguments, bindTo_single isBound, List.append_nil] at taken
  rw [taken, bindNamed]

/-- One more argument behind a block is bound with the block if that goes on with it, or else on its
own.
-/
theorem bindNamed_block_snoc {block : Block} (reaches : schema.Reaches next owner)
    (owns : schema.Owns block) (shaped : block.Shaped) (isLast : block.bindTo progress = .ok last)
    (isBound : owner.bindText next.value last.bindings = .ok bindings)
    : bindNamed schema progress (block.arguments ++ [next])
      = .ok { last with bindings := bindings } := by
  rcases reaches.stopsBefore_or owns.1 with stops | ⟨isOwner, several⟩
  · rw [bindNamed_of_cut _ owns ⟨shaped, by simpa using stops⟩, isLast]
    exact bindNamed_single reaches isBound
  · obtain ⟨_, first, following⟩ := block
    cases isOwner
    have longer : Block.Shaped ⟨.simple owner, first, following ++ [next]⟩ :=
      List.forall_mem_append.2
        ⟨shaped, List.forall_mem_singleton.2 ⟨several, Or.inr reaches.names⟩⟩
    have taken := @bindNamed_of_cut schema ⟨.simple owner, first, following ++ [next]⟩ [] progress
      owns ⟨longer, by simp⟩
    rw [Block.bindTo_simple_append, isLast] at taken
    simp only [Bind.bind, Except.bind, bindTo_single isBound, Block.arguments, List.append_nil]
      at taken
    rw [Block.arguments, List.cons_append, taken, bindNamed]

/-- One more argument behind arguments that are bound by name is bound behind them all. All blocks
but the last stay as they are, since the first argument behind them is the same.
-/
theorem bindNamed_snoc {arguments : List Argument} (reaches : schema.Reaches next owner)
    (run : bindNamed schema progress arguments = .ok last)
    (isBound : owner.bindText next.value last.bindings = .ok bindings)
    : bindNamed schema progress (arguments ++ [next])
      = .ok { last with bindings := bindings } := by
  obtain ⟨blocks, rfl, owned, consecutive, run⟩ := bindNamed_eq_ok_iff.1 run
  rcases List.eq_nil_or_concat blocks with rfl | ⟨front, block, rfl⟩
  · obtain rfl : progress = last := Except.ok.inj run
    exact bindNamed_single reaches isBound
  · rw [List.concat_eq_append] at owned consecutive run ⊢
    obtain ⟨before, ⟨shaped, -⟩, -⟩ := consecutive_append.1 consecutive
    obtain ⟨middle, bound, run⟩ := bindBlocks_append_eq_ok_iff.1 run
    obtain ⟨_, isLast, same⟩ := bindBlocks_cons_eq_ok_iff.1 run
    obtain rfl := Except.ok.inj same
    have ownedFront : ∀ other ∈ front, schema.Owns other :=
      fun other member => owned other (by simp [member])
    rw [List.flatMap_append, List.append_assoc, List.flatMap_singleton,
      bindNamed_of_consecutive ownedFront (before.of_head? (by simp [Block.arguments])) bound]
    exact bindNamed_block_snoc reaches (owned block (by simp)) shaped isLast isBound

end Snoc

/-- One more argument that can be bound to the parameter it names is bound behind all others. -/
theorem bindArguments_snoc {schema : Schema} {progress : Progress} {arguments : List Argument}
    {next : Argument} {owner : Simple} {bindings : List Binding}
    (reaches : schema.Reaches next owner) (run : bindArguments schema arguments = .ok progress)
    (isBound : owner.bindText next.value progress.bindings = .ok bindings)
    : bindArguments schema (arguments ++ [next])
      = .ok { progress with bindings := bindings } := by
  unfold bindArguments at run ⊢
  cases walk : bindLeading schema.params arguments [] with
  | error error =>
      rw [walk] at run
      cases run
  | ok reached =>
      obtain ⟨walked, rest⟩ := reached
      rw [walk] at run
      dsimp only at run
      rcases bindLeading_snoc (fun _ => reaches.eq_of_fits) walk with left | ⟨rfl, taken⟩
      · rw [left]
        exact bindNamed_snoc reaches run isBound
      · rw [bindNamed] at run
        cases run
        rw [taken, isBound]
        exact bindNamed.eq_1 schema _

-----------------------------------------------------------------------------------------
-- What is missing then
-----------------------------------------------------------------------------------------

/-- A missing value is reported when all arguments are bound. -/
theorem exists_lacking_of_missing {entries : List Entry} {schema : Schema}
    {arguments : List (Option String)} {replacer : Replacer} {name : String}
    (accepted : Schema.declare entries = .ok schema)
    (missing : (bind entries replacer arguments).result = .error (.binding (.missing name)))
    : ∃ progress param,
        bindArguments schema (Argument.ofTexts arguments) = .ok progress
        ∧ schema.lacking? progress = some param
        ∧ param.name = name := by
  by_cases usage : arguments = [some usageRequest]
  · simp [bind, usage] at missing
  rw [bind_result_eq replacer accepted usage] at missing
  cases run : bindArguments schema (Argument.ofTexts arguments) with
  | error halt =>
      simp only [run, Except.error.injEq, Error.binding.injEq] at missing
      rcases bindArguments_error_cases run with inArgument | ⟨behind, group, member, -, same⟩
      · rw [missing] at inArgument
        exact absurd inArgument not_false
      · rw [missing, BindingError.ofMissingMember] at same
        split at same <;> cases same
  | ok progress =>
      simp only [run] at missing
      cases lacking : schema.lacking? progress with
      | none => simp [lacking] at missing
      | some param =>
          simp only [lacking, Except.error.injEq, Error.binding.injEq,
            BindingError.missing.injEq] at missing
          exact ⟨progress, param, rfl, lacking, missing⟩

/-- When the first parameter that lacks a value is supplied, what lacks a value then is declared
later.
-/
theorem Schema.lacking?_supplied {schema : Schema} {progress : Progress} {param later : Simple}
    {value : String} (lacking : schema.lacking? progress = some param)
    (lackingThen
      : schema.lacking?
          { progress with bindings := progress.bindings ++ [{ param := param, value := value }] }
        = some later)
    : later.isRequired = true ∧ [.simple param, .simple later].Sublist schema.params := by
  have supplied (key : String)
      : boundValues key (progress.bindings ++ [{ param := param, value := value }])
        = boundValues key progress.bindings ++ if param.key = key then [value] else [] := by
    rw [boundValues_append]
    exact congrArg _ (boundValues_map key param [value])
  obtain ⟨-, front, back, split, complete⟩ := firstLacking?_eq_some_iff.1 lacking
  obtain ⟨⟨required, unbound⟩, -⟩ := firstLacking?_eq_some_iff.1 lackingThen
  have declared := mem_of_firstLacking? lackingThen
  rw [supplied, List.append_eq_nil_iff] at unbound
  have isBack : later ∈ back := by
    rw [split] at declared
    rcases List.mem_append.1 declared with isFront | isParam | ⟨_, isBack⟩
    · exact absurd unbound.1 (firstLacking?_eq_none_iff.1 complete later isFront required)
    · simp at unbound
    · exact isBack
  have ordered : [param, later].Sublist (simpleParams schema.params) := by
    rw [split]
    exact ((List.singleton_sublist.2 isBack).cons_cons param).trans (List.sublist_append_right _ _)
  exact ⟨required, (ordered.map Param.simple).trans (simpleParams_sublist schema.params)⟩

-----------------------------------------------------------------------------------------
-- Calls
-----------------------------------------------------------------------------------------

/-- The written argument for a declared parameter means it, unless a member of a group has its key.
-/
theorem Schema.reaches_render {schema : Schema} {param : Simple} {value : String}
    (declared : .simple param ∈ schema.params) (name_trimmed : Trimmed param.name)
    (name_plain : ∀ c ∈ param.name.toList, isNameEnd c = false) (value_trimmed : Trimmed value)
    (apart
      : ∀ group,
          .repeating group ∈ schema.params → ∀ member ∈ group.members, member.key ≠ param.key)
    : schema.Reaches (Argument.ofText (Argument.render param.name value)) param := by
  have names : (Argument.ofText (Argument.render param.name value)).Names param.key := by
    rw [Argument.ofText_render name_trimmed name_plain value_trimmed]
    rfl
  refine ⟨declared, names, ?_⟩
  intro group isGroup member isMember same
  have key := same.unique names
  rcases List.mem_cons.1 isMember with rfl | isMember
  · cases Schema.eq_of_key isGroup declared key
  · exact apart group isGroup member isMember key

/-- An accepted value is bound to a parameter that has none as its only value. -/
theorem Simple.bindText_of_accepted {param : Simple} {value accepted : String}
    {bound : List Binding} (whole : param.Whole value)
    (isAccepted : acceptValue param.name param.choices value = .ok accepted)
    (unbound : boundValues param.key bound = [])
    : param.bindText value bound = .ok (bound ++ [{ param := param, value := accepted }]) := by
  have selected := acceptValue_eq_ok_iff.1 isAccepted
  refine bindText_eq_ok_iff.2 ⟨Or.inr unbound, ?_, ?_⟩
  · simp [Allows, whole.valuesIn_eq, selected]
  · simp [valuesFrom, whole.valuesIn_eq, selected]

/-- Where a call on accepted declarations reports a missing value, all its arguments are bound and
the parameter is the first declared one that is required and lacks a value. With one more argument
that supplies it, the call succeeds with that one value or reports a parameter that is declared
later.
-/
theorem bind_missing_supplied {entries : List Entry} {schema : Schema}
    {arguments : List (Option String)} {replacer : Replacer} {name : String}
    (accepted : Schema.declare entries = .ok schema)
    (missing : (bind entries replacer arguments).result = .error (.binding (.missing name)))
    : ∃ progress param,
        bindArguments schema (Argument.ofTexts arguments) = .ok progress
        ∧ schema.lacking? progress = some param
        ∧ param.name = name
        ∧ ∀ value checked,
            Trimmed param.name
            → (∀ c ∈ param.name.toList, isNameEnd c = false)
            → (∀ group,
                .repeating group ∈ schema.params
                → ∀ member ∈ group.members, member.key ≠ param.key)
            → param.Whole value
            → acceptValue param.name param.choices value = .ok checked
            → (∃ bound,
                (bind entries replacer
                      (some (arguments ++ [some (Argument.render param.name value)]))).result
                  = .ok bound
                ∧ bound.contentsOf (.simple param) = .plain [checked])
              ∨ ∃ later,
                  later.isRequired = true
                  ∧ [.simple param, .simple later].Sublist schema.params
                  ∧ (bind entries replacer
                        (some (arguments ++ [some (Argument.render param.name value)]))).result
                    = .error (.binding (.missing later.name)) := by
  obtain ⟨progress, param, run, lacking, named⟩ := exists_lacking_of_missing accepted missing
  refine ⟨progress, param, run, lacking, named, ?_⟩
  intro value checked name_trimmed name_plain apart whole isAccepted
  have declared := mem_simpleParams.1 (mem_of_firstLacking? lacking)
  obtain ⟨⟨-, unbound⟩, -⟩ := firstLacking?_eq_some_iff.1 lacking
  have reaches := Schema.reaches_render declared name_trimmed name_plain whole.trimmed apart
  have isBound := Simple.bindText_of_accepted whole isAccepted unbound
  have valueRead : (Argument.ofText (Argument.render param.name value)).value = value := by
    rw [Argument.ofText_render name_trimmed name_plain whole.trimmed]
  have run := bindArguments_snoc reaches run (by rwa [valueRead])
  have notUsage : arguments ++ [some (Argument.render param.name value)]
      ≠ [some usageRequest] := by
    intro usage
    have positional : (Argument.ofText usageRequest).name = none := by decide
    rcases List.append_eq_singleton_iff.1 usage with ⟨-, same⟩ | ⟨-, none⟩
    · rw [List.singleton_inj, Option.some_inj] at same
      exact reaches.names.name_ne_none (same ▸ positional)
    · cases none
  have texts : Argument.ofTexts (arguments ++ [some (Argument.render param.name value)])
      = Argument.ofTexts arguments ++ [Argument.ofText (Argument.render param.name value)] :=
    Argument.ofTexts_append arguments _
  rw [bind_result_eq replacer accepted notUsage, texts, run]
  dsimp only
  cases lackingThen
    : schema.lacking?
        { progress with bindings := progress.bindings ++ [{ param := param, value := checked }] }
    with
  | none =>
      refine Or.inl ⟨_, rfl, ?_⟩
      rw [Bound.contentsOf, Schema.values_at_completed declared, boundValues_append, unbound]
      have only : boundValues param.key [{ param := param, value := checked }] = [checked] := by
        simp [boundValues]
      rw [only]
      rfl
  | some later =>
      obtain ⟨required, ordered⟩ := Schema.lacking?_supplied lacking lackingThen
      exact Or.inr ⟨later, required, ordered, rfl⟩

/-- A trade with a positional account and a fill has no side; it succeeds with the side behind them.
-/
theorem trade_side_supplied
    : Schema.declare Trade.entries = .ok Trade.schema
      ∧ (bind Trade.entries id [some "joe", some "fill: 1"]).result
        = .error (.binding (.missing "side"))
      ∧ ∃ bound,
          (bind Trade.entries id
              (some
                ([some "joe", some "fill: 1"]
                  ++ [some (Argument.render "side" "sell")]))).result
            = .ok bound
          ∧ bound.contentsOf (.simple Trade.side) = .plain ["SELL"] := by
  have missing : (bind Trade.entries id [some "joe", some "fill: 1"]).result
      = .error (.binding (.missing "side")) := by decide +kernel
  obtain ⟨progress, param, -, lacking, named, supply⟩ :=
    bind_missing_supplied Trade.declare_entries missing
  obtain rfl : param = Trade.side := by
    have declared := mem_of_firstLacking? lacking
    have others : ∀ other ∈ simpleParams Trade.schema.params,
        other.name = "side" → other = Trade.side := by decide
    exact others param declared named
  have plain : ∀ c ∈ Trade.side.name.toList, isNameEnd c = false := by
    simp [Trade.side, isNameEnd]
  have apart : ∀ group,
      .repeating group ∈ Trade.schema.params
      → ∀ member ∈ group.members, member.key ≠ Trade.side.key := by
    intro group declared
    obtain rfl : group = Trade.fills := by simpa [Trade.schema] using declared
    decide
  refine ⟨Trade.declare_entries, missing, ?_⟩
  rcases supply "sell" "SELL" (by decide) plain apart (by decide) (by rfl) with isBound
    | ⟨later, -, -, lacks⟩
  · exact isBound
  · have isBound : (bind Trade.entries id
          (some ([some "joe", some "fill: 1"]
            ++ [some (Argument.render "side" "sell")]))).result.toOption.isSome = true := by
      decide +kernel
    obtain ⟨bound, isBound⟩ := exists_eq_ok_of_isSome isBound
    cases isBound.symm.trans lacks

end ArgBinding
