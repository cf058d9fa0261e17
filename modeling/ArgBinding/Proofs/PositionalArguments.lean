import ArgBinding.Proofs.Grammar
import ArgBinding.Proofs.MoreArguments
import ArgBinding.Proofs.UniqueCuts

/-! Positional arguments. The walk over the leading required parameters takes them, and so does a
plain parameter of several values behind an argument that is bound to it. Anywhere else a positional
argument is an error, whatever comes behind it.
-/

namespace ArgBinding

open ArgBinding.Text

/-- The block is one of a plain parameter that takes several values. -/
def Block.Several (block : Block) : Prop :=
  match block.param with
  | .simple param => param.allowMultiple = true
  | .repeating _ => False

instance : (block : Block) → Decidable block.Several
  | ⟨.simple param, _, _⟩ => inferInstanceAs (Decidable (param.allowMultiple = true))
  | ⟨.repeating _, _, _⟩ => inferInstanceAs (Decidable False)

/-- A positional argument behind the blocks of a cut is taken: the last block is one of a plain
parameter of several values, or the walk has taken all arguments and comes to another required
parameter.
-/
def Schema.TakesPositional (schema : Schema) (leading named : List Block) : Prop :=
  (∃ block ∈ (leading ++ named).getLast?, block.Several)
  ∨ named = [] ∧ ∃ param ∈ schema.params[leading.length]?, param.isRequired = true

instance (schema : Schema) (leading named : List Block)
    : Decidable (schema.TakesPositional leading named) :=
  inferInstanceAs (Decidable (_ ∨ _))

section Positional

variable {schema : Schema} {progress : Progress} {block : Block} {blocks leading named : List Block}
  {next : Argument} {arguments behind : List Argument} {group : Group}

/-- In a block that starts with a name, only a plain parameter of several values takes positional
arguments.
-/
theorem Schema.Owns.following_of_positional {argument : Argument} (owns : schema.Owns block)
    (shaped : block.Shaped) (isArgument : argument ∈ block.arguments)
    (positional : argument.name = none)
    : argument ∈ block.following ∧ block.Several := by
  cases isParam : block.param with
  | repeating group =>
      exact absurd positional (Block.named_of_repeating shaped isParam owns.2 argument isArgument)
  | simple param =>
      obtain ⟨_, first, following⟩ := block
      cases isParam
      rcases List.mem_cons.1 isArgument with rfl | isFollowing
      · exact absurd positional owns.2.name_ne_none
      · exact ⟨isFollowing, (shaped argument isFollowing).1⟩

-----------------------------------------------------------------------------------------
-- Where a positional argument is left
-----------------------------------------------------------------------------------------

theorem bindNamed_of_positional (positional : next.name = none)
    : bindNamed schema progress (next :: behind)
      = .error { error := .ambiguous next.written, progress := progress } := by
  rw [bindNamed_cons, bindBlock, positional]

/-- A repetition that came to the end of the arguments does not go on with a positional one. -/
theorem Group.continuation_positional {first : Argument} {following : List Argument}
    (names : first.Names group.key)
    (cut : Block.CutBefore ⟨.repeating group, first, following⟩ [])
    (positional : next.name = none)
    : (group.continuation (following ++ next :: behind)).map Prod.snd = following := by
  have whole := ((cutBefore_iff names).1 cut).1
  obtain ⟨room, apart, -⟩ := map_continuationFrom_eq_iff.1 whole
  refine map_continuationFrom_eq_iff.2 ⟨room, apart, ?_⟩
  intro other isNext h
  obtain rfl := Option.some.inj isNext
  obtain ⟨⟨member, -, namesMember, -⟩, -⟩ := h
  exact namesMember.name_ne_none positional

/-- A positional argument behind a repetition is an error before anything is missing from it. -/
theorem bindNamed_of_repetition (owns : schema.Owns block)
    (isGroup : block.param = .repeating group) (cut : block.CutBefore [])
    (allowed : block.Allowed) (positional : next.name = none)
    : bindNamed schema progress (block.arguments ++ next :: behind)
      = .error { error := .ambiguous next.written, progress := progress } := by
  have coherent := Block.coherent_of_repeating isGroup
  obtain ⟨_, first, following⟩ := block
  cases isGroup
  obtain ⟨declared, names⟩ := owns
  have taken := @Group.continuation_positional next behind group first following names cut
    positional
  have size : (group.continuation (following ++ next :: behind)).length = following.length := by
    rw [← List.length_map Prod.snd, taken]
  have bound := (@bindAssigned_eq_ok_iff _ [] _ coherent).2
    ⟨allowed, Group.pairwise_filterMap_assignment? cut.1.2, by simp [boundValues], rfl⟩
  rw [Group.assignments_eq names taken] at bound
  rw [Block.arguments, List.cons_append, bindNamed_cons, bindBlock_of_repeating declared names,
    size, List.drop_left]
  simp only [List.head?_cons, Group.bindRepetition, bound, Bind.bind, Except.bind,
    Argument.isPositional, positional, Option.isNone_none, if_true, Except.map]

theorem Bindable.front {later : List Block} (bindable : Bindable (blocks ++ later))
    : Bindable blocks := by
  obtain ⟨allowed, once, filled⟩ := bindable
  exact ⟨fun block member => allowed block (List.mem_append_left _ member),
    (List.pairwise_append.1 once).1,
    fun block member => filled block (List.mem_append_left _ member)⟩

/-- Blocks that took all arguments are cut before one before which the last of them stops. -/
theorem Consecutive.before (consecutive : Consecutive blocks [])
    (stops : ∀ block ∈ blocks.getLast?, block.StopsBefore next)
    : Consecutive blocks (next :: behind) := by
  rcases List.eq_nil_or_concat blocks with rfl | ⟨front, last, rfl⟩
  · trivial
  · rw [List.concat_eq_append] at consecutive stops ⊢
    obtain ⟨before, ⟨⟨shaped, -⟩, -⟩⟩ := consecutive_append.1 consecutive
    have stopsLast := stops last (by simp)
    exact consecutive_append.2 ⟨before.of_head? (by simp [Block.arguments]),
      ⟨shaped, by simpa using stopsLast⟩, trivial⟩

theorem Schema.Cut.before (cut : schema.Cut arguments leading named)
    (stops : ∀ block ∈ (leading ++ named).getLast?, block.StopsBefore next)
    (ended : named = [] → ∀ param ∈ schema.params[leading.length]?, ¬ param.isRequired = true)
    : schema.PartialCut (arguments ++ next :: behind) leading named (next :: behind) := by
  refine ⟨by rw [cut.whole], cut.walked, cut.met, ?_, cut.owned, cut.consecutive.before stops⟩
  intro param isNext first isFirst required
  cases named with
  | nil => exact absurd required (ended rfl param isNext)
  | cons block rest =>
      obtain rfl : block.first = first := by simpa [Block.arguments] using isFirst
      exact cut.left param isNext block rfl required

/-- A positional argument is an error behind a repetition to which all before it was bound. -/
theorem bindArguments_of_repetition
    (cut : schema.PartialCut arguments leading (named ++ [block]) [])
    (bindable : Bindable (leading ++ named)) (isGroup : block.param = .repeating group)
    (allowed : block.Allowed) (positional : next.name = none)
    : ∃ halt,
        bindArguments schema (arguments ++ next :: behind) = .error halt
        ∧ halt.error = .ambiguous next.written := by
  obtain ⟨before, owns, last⟩ := Schema.PartialCut.snoc_iff.1 cut
  rw [List.append_nil] at before
  exact ⟨_, ((before.append (next :: behind)).bindArguments_eq bindable).trans
    (bindNamed_of_repetition owns isGroup last allowed positional), rfl⟩

/-- A positional argument that is not taken is an error behind what can be bound. A repetition at
the end looks at it first, any other block stops before it.
-/
theorem Schema.Cut.bindArguments_positional (cut : schema.Cut arguments leading named)
    (bindable : Bindable (leading ++ named)) (untaken : ¬ schema.TakesPositional leading named)
    (positional : next.name = none)
    : ∃ halt,
        bindArguments schema (arguments ++ next :: behind) = .error halt
        ∧ halt.error = .ambiguous next.written := by
  obtain ⟨single, ended⟩ := not_or.1 untaken
  by_cases isOpen : ∃ block ∈ (leading ++ named).getLast?, ∃ group, block.param = .repeating group
  · obtain ⟨block, isLast, group, isGroup⟩ := isOpen
    rcases List.eq_nil_or_concat named with rfl | ⟨front, last, rfl⟩
    · rw [List.append_nil] at isLast
      have required := (cut.met block (List.mem_of_getLast? isLast)).1
      simp [isGroup, Param.isRequired] at required
    · rw [List.concat_eq_append] at cut bindable isLast
      obtain rfl : last = block := by simpa [← List.append_assoc] using isLast
      have allowed := bindable.allowed last (by simp)
      rw [← List.append_assoc] at bindable
      exact bindArguments_of_repetition cut.partialCut bindable.front isGroup allowed positional
  · have stops : ∀ block ∈ (leading ++ named).getLast?, block.StopsBefore next := by
      intro block isLast
      obtain ⟨param, first, following⟩ := block
      cases param with
      | simple param => exact fun several _ => single ⟨_, isLast, several⟩
      | repeating group => exact absurd ⟨_, isLast, group, rfl⟩ isOpen
    have longer : schema.PartialCut (arguments ++ next :: behind) leading named (next :: behind) :=
      cut.before stops fun none param isNext required => ended ⟨none, param, isNext, required⟩
    exact ⟨_, (longer.bindArguments_eq bindable).trans (bindNamed_of_positional positional), rfl⟩

end Positional

-----------------------------------------------------------------------------------------
-- Calls
-----------------------------------------------------------------------------------------

theorem Argument.written_ofText (text : String) : (ofText text).written = text := by
  unfold ofText
  dsimp only
  split <;> rfl

section Calls

variable {entries : List Entry} {schema : Schema} {front more : List (Option String)}
  {text : String}

/-- Where binding some arguments fails alike whatever comes behind, so do all longer calls. -/
theorem bind_append_eq_error_of_stays {cause : BindingError} (replacer : Replacer)
    (accepted : Schema.declare entries = .ok schema)
    (stays
      : ∀ more,
          ∃ halt,
            bindArguments schema (Argument.ofTexts front ++ more) = .error halt
            ∧ halt.error = cause)
    : ∀ others,
        others ≠ []
        → (bind entries replacer (some (front ++ others))).result = .error (.binding cause) := by
  intro others nonempty
  obtain ⟨_, failsInFront, -⟩ := stays []
  rw [List.append_nil] at failsInFront
  obtain ⟨halt, fails, rfl⟩ := stays (Argument.ofTexts others)
  rw [bind_result_eq replacer accepted (append_ne_usage failsInFront (Or.inr nonempty)),
    Argument.ofTexts_append, fails]

theorem bind_eq_ambiguous (replacer : Replacer) (accepted : Schema.declare entries = .ok schema)
    (notUsage : front ++ some text :: more ≠ [some usageRequest])
    (fails
      : ∃ halt,
          bindArguments schema
              (Argument.ofTexts front ++ Argument.ofText text :: Argument.ofTexts more)
            = .error halt
          ∧ halt.error = .ambiguous (Argument.ofText text).written)
    : (bind entries replacer (some (front ++ some text :: more))).result
      = .error (.binding (.ambiguous text)) := by
  obtain ⟨halt, fails, same⟩ := fails
  have texts : Argument.ofTexts (front ++ some text :: more)
      = Argument.ofTexts front ++ Argument.ofText text :: Argument.ofTexts more :=
    Argument.ofTexts_append front (some text :: more)
  rw [Argument.written_ofText] at same
  rw [bind_result_eq replacer accepted notUsage, texts, fails]
  dsimp only
  rw [same]

end Calls

/-- Where a call on accepted declarations succeeds, a positional argument is bound in the walk over
the leading required parameters, or it follows in a block of a plain parameter of several values
that starts with its name. Wherever a positional argument stands, the call fails on what is in front
of it whatever comes behind, or what is in front can be cut; then the argument is taken by the
blocks of the cut, or the call fails on it.
-/
theorem bind_positional {entries : List Entry} {schema : Schema} (replacer : Replacer)
    (accepted : Schema.declare entries = .ok schema)
    : (∀ (arguments : List (Option String)) (bound : Bound),
        (bind entries replacer arguments).result = .ok bound
        → ∃ leading named,
            schema.Cut (Argument.ofTexts arguments) leading named
            ∧ bound = schema.completed replacer (progressOf (leading ++ named))
            ∧ ∀ block ∈ named,
                ∀ argument ∈ block.arguments,
                  argument.isPositional = true → argument ∈ block.following ∧ block.Several)
      ∧ ∀ front text more,
          (Argument.ofText text).isPositional = true
          → front ++ some text :: more ≠ [some usageRequest]
          → (∃ cause,
              ∀ others,
                others ≠ []
                → (bind entries replacer (some (front ++ others))).result = .error (.binding cause))
            ∨ ∃ leading named,
                schema.Cut (Argument.ofTexts front) leading named
                ∧ (schema.TakesPositional leading named
                  ∨ (bind entries replacer (some (front ++ some text :: more))).result
                    = .error (.binding (.ambiguous text))) := by
  constructor
  · intro arguments bound isBound
    obtain ⟨-, leading, named, cut, -, rfl⟩ := (bind_result_eq_ok_iff_cut accepted).1 isBound
    refine ⟨leading, named, cut, rfl, ?_⟩
    intro block member argument isArgument positional
    exact (cut.owned block member).following_of_positional (cut.shaped block (by simp [member]))
      isArgument (by simpa [Argument.isPositional] using positional)
  · intro front text more isPositional notUsage
    have positional : (Argument.ofText text).name = none := by
      simpa [Argument.isPositional] using isPositional
    cases run : bindArguments schema (Argument.ofTexts front) with
    | ok progress =>
        obtain ⟨leading, named, cut, isBound⟩ := bindArguments_eq_ok_iff.1 run
        refine Or.inr ⟨leading, named, cut, or_iff_not_imp_left.2 ?_⟩
        intro untaken
        have bindable := ((bindBlocks_start_eq_ok_iff cut.declared cut.shaped).1 isBound).1
        exact bind_eq_ambiguous replacer accepted notUsage
          (cut.bindArguments_positional bindable untaken positional)
    | error halt =>
        rcases bindArguments_error_cases run with inArgument | ⟨behind, group, member, ends, same⟩
        · exact Or.inl ⟨halt.error, bind_append_eq_error_of_stays replacer accepted fun more =>
            bindArguments_append_eq_error more inArgument run⟩
        · cases behind with
          | nil =>
              -- The repetition is still open, so the positional argument is looked at first.
              obtain ⟨leading, named, block, cut, bindable, lacks⟩ := ends
              exact Or.inr ⟨leading, named ++ [block], cut.cut, Or.inr
                (bind_eq_ambiguous replacer accepted notUsage
                  (bindArguments_of_repetition cut bindable lacks.isGroup lacks.allowed
                    positional))⟩
          | cons next behind =>
              exact Or.inl ⟨_, bind_append_eq_error_of_stays replacer accepted fun more =>
                bindArguments_of_endsWithout (ends.append more)⟩

/-- In a trade the tag behind the named tags is taken with them; a positional argument behind a fill
is an error.
-/
theorem trade_positional
    : Schema.declare Trade.entries = .ok Trade.schema
      ∧ (∃ bound leading named,
          (bind Trade.entries id Trade.arguments).result = .ok bound
          ∧ Trade.schema.Cut (Argument.ofTexts Trade.arguments) leading named
          ∧ ∀ block ∈ named,
              ∀ argument ∈ block.arguments,
                argument.isPositional = true → argument ∈ block.following ∧ block.Several)
      ∧ (Argument.ofText "x").isPositional = true
      ∧ (bind Trade.entries id
            (some ([some "joe", some "SIDE = buy", some "fill: 1"] ++ some "x" :: []))).result
        = .error (.binding (.ambiguous "x")) := by
  obtain ⟨succeeds, fails⟩ := bind_positional id Trade.declare_entries
  obtain ⟨bound, bound_ok⟩ := Trade.exists_bound
  obtain ⟨leading, named, cut, -, taken⟩ := succeeds Trade.arguments bound bound_ok
  refine ⟨Trade.declare_entries, ⟨bound, leading, named, bound_ok, cut, taken⟩, by decide, ?_⟩
  rcases fails [some "joe", some "SIDE = buy", some "fill: 1"] "x" [] (by decide) (by decide)
    with ⟨cause, failsAnyway⟩ | ⟨leading, named, cut, taken | ambiguous⟩
  · have isBound : (bind Trade.entries id
          (some ([some "joe", some "SIDE = buy", some "fill: 1"]
            ++ [some "price: 2"]))).result.toOption.isSome = true := by
      decide +kernel
    obtain ⟨bound, bound_ok⟩ := exists_eq_ok_of_isSome isBound
    cases bound_ok.symm.trans (failsAnyway [some "price: 2"] (by simp))
  · have front : Trade.schema.Cut
          (Argument.ofTexts [some "joe", some "SIDE = buy", some "fill: 1"])
          [⟨.simple Trade.account, Argument.ofText "joe", []⟩,
            ⟨.simple Trade.side, Argument.ofText "SIDE = buy", []⟩]
          [⟨.repeating Trade.fills, Argument.ofText "fill: 1", []⟩] := by
      decide
    obtain ⟨rfl, rfl⟩ := cut.unique front
    exact absurd taken (by decide)
  · exact ambiguous

/-- A positional argument can be bound where no parameter is required: behind a named tag it is one
more tag.
-/
theorem tag_behind_named_tag
    : ∃ schema,
        Schema.declare [.declared (.simple Trade.tags)] = .ok schema
        ∧ (∀ param ∈ schema.params, param.isRequired = false)
        ∧ (Argument.ofText "tags: a").isPositional = false
        ∧ (Argument.ofText "b").isPositional = true
        ∧ ∃ bound,
            (bind [.declared (.simple Trade.tags)] id [some "tags: a", some "b"]).result
              = .ok bound
            ∧ bound.contents = [("tags", .plain ["a", "b"])] := by
  have tagged : (bind [.declared (.simple Trade.tags)] id
        [some "tags: a", some "b"]).result.toOption.map Bound.contents
      = some [("tags", .plain ["a", "b"])] := by
    decide +kernel
  exact ⟨{ params := [.simple Trade.tags], keys_nodup := by simp, required_first := by simp },
    Schema.declare_eq_ok_iff.2 rfl, by decide, by decide, by decide,
    exists_eq_ok_of_map_toOption tagged⟩

end ArgBinding
