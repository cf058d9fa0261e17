import ArgBinding.Proofs.FailingRuns

/-! Where the errors of a run come from. Binding arguments fails either on an argument that cannot
be bound, whatever is behind it, or where a repetition ends in which a required member lacks a
value.
-/

namespace ArgBinding

open ArgBinding.Text

/-- The error is in an argument that cannot be bound; nothing is missing. -/
def BindingError.InArgument : BindingError → Prop
  | ambiguous _ => True
  | unexpected _ => True
  | repeated _ => True
  | notAllowed _ _ _ => True
  | missing _ => False
  | missingMember _ _ => False
  | unwritableGroup _ => False

theorem BindingError.not_inArgument_ofMissingMember (group member : String)
    : ¬ (ofMissingMember group member).InArgument := by
  unfold ofMissingMember
  cases expandDirectives group.toList <;> exact not_false

-----------------------------------------------------------------------------------------
-- Values
-----------------------------------------------------------------------------------------

theorem Simple.inArgument_of_bindText {param : Simple} {text : String} {bound : List Binding}
    {e : BindingError} (fails : param.bindText text bound = .error e)
    : e.InArgument := by
  unfold bindText at fails
  split at fails
  · cases fails
    trivial
  · obtain ⟨_, _, _, rfl⟩ := exists_notAllowed_of_bindAll (except_map_eq_error_iff.1 fails)
    trivial

/-- Binding assigned arguments fails on one of them, by induction on the assignments. -/
theorem inArgument_of_bindAssigned {assignments : List Assignment} {bound : List Binding}
    {e : BindingError} (fails : bindAssigned assignments bound = .error e)
    : e.InArgument := by
  induction assignments generalizing bound with
  | nil => cases fails
  | cons first rest ih =>
      rw [bindAssigned_cons, except_bind_eq_error_iff] at fails
      rcases fails with fails | ⟨middle, -, fails⟩
      · exact Simple.inArgument_of_bindText fails
      · exact ih fails

/-- The walk over the leading parameters fails on an argument, by induction on the parameters. -/
theorem inArgument_of_bindLeading {params : List Param} {arguments : List Argument}
    {bound : List Binding} {e : BindingError}
    (fails : bindLeading params arguments bound = .error e)
    : e.InArgument := by
  fun_induction bindLeading params arguments bound with
  | case1 param params first rest bound takes following error failed =>
      cases fails
      exact inArgument_of_bindAssigned failed
  | case2 param params first rest bound takes following reached bound_ok ih => exact ih fails
  | case3 => cases fails
  | case4 => cases fails

-----------------------------------------------------------------------------------------
-- Repetitions that lack a value
-----------------------------------------------------------------------------------------

/-- The first member of a group that is required and lacks a value in a block of the group. -/
def Block.lacking? (block : Block) (group : Group) : Option Simple :=
  firstLacking? (assignedValues · block.assignments) group.params

/-- Binding the allowed block of a repetition fails when a member lacks a value. The arguments may
stand in one repetition, so nothing else is wrong with it.
-/
theorem Block.bindTo_of_lacking {block : Block} {group : Group} {member : Simple}
    (progress : Progress) (shaped : block.Shaped) (isGroup : block.param = .repeating group)
    (allowed : block.Allowed) (lacking : block.lacking? group = some member)
    : block.bindTo progress = .error (.ofMissingMember group.name member.name) := by
  have coherent := Block.coherent_of_repeating isGroup
  obtain ⟨param, first, following⟩ := block
  cases isGroup
  have bound := (@bindAssigned_eq_ok_iff _ [] _ coherent).2
    ⟨allowed, Group.pairwise_filterMap_assignment? shaped.2, by simp [boundValues], rfl⟩
  unfold Block.lacking? at lacking
  simp only [Block.bindTo, bound, List.nil_append, Bind.bind, Except.bind, settleAll_eq,
    boundValues_bindingsOf, lacking]

/-- The block is a repetition of a group in which a member lacks a value, the first that does. -/
structure Block.EndsWithout (block : Block) (group : Group) (member : Simple) : Prop where
  isGroup : block.param = .repeating group
  allowed : block.Allowed
  lacking : block.lacking? group = some member

/-- A repetition of a group ends in front of some arguments without a value for a member. What is in
front of the repetition is bound.
-/
def Schema.EndsWithout (schema : Schema) (arguments behind : List Argument) (group : Group)
    (member : Simple)
    : Prop :=
  ∃ leading named block,
    schema.PartialCut arguments leading (named ++ [block]) behind
    ∧ Bindable (leading ++ named)
    ∧ block.EndsWithout group member

/-- A repetition fails on one of its arguments or on a positional one behind it, or its members are
settled with an error.
-/
theorem Group.bindRepetition_error_cases {group : Group} {assignments : List Assignment}
    {next? : Option Argument} {e : BindingError}
    (fails : group.bindRepetition assignments next? = .error e)
    : e.InArgument
      ∨ (∀ next ∈ next?, next.name ≠ none)
        ∧ ∃ bindings,
            bindAssigned assignments [] = .ok bindings
            ∧ settleAll (.ofMissingMember group.name) bindings group.params = .error e := by
  by_cases named : ∀ next ∈ next?, next.name ≠ none
  · rw [bindRepetition_of_named named, except_bind_eq_error_iff] at fails
    rcases fails with fails | settled
    · exact Or.inl (inArgument_of_bindAssigned fails)
    · exact Or.inr ⟨named, settled⟩
  · simp only [not_forall, not_not] at named
    obtain ⟨next, isNext, positional⟩ := named
    obtain rfl : next? = some next := isNext
    simp only [bindRepetition, Argument.isPositional, positional, Option.isNone_none, if_true,
      except_bind_eq_error_iff, Except.error.injEq] at fails
    rcases fails with fails | ⟨bindings, -, rfl⟩
    · exact Or.inl (inArgument_of_bindAssigned fails)
    · exact Or.inl trivial

/-- A repetition whose members are settled with an error ends without a value for one of them. -/
theorem Block.exists_endsWithout {block : Block} {group : Group} {bindings : List Binding}
    {e : BindingError} (isGroup : block.param = .repeating group)
    (bound : bindAssigned block.assignments [] = .ok bindings)
    (fails : settleAll (.ofMissingMember group.name) bindings group.params = .error e)
    : ∃ member,
        block.EndsWithout group member ∧ e = .ofMissingMember group.name member.name := by
  obtain ⟨allowed, -, -, rfl⟩ :=
    (bindAssigned_eq_ok_iff (Block.coherent_of_repeating isGroup)).1 bound
  simp only [settleAll_eq, List.nil_append, boundValues_bindingsOf] at fails
  cases lacking : block.lacking? group with
  | none =>
      rw [Block.lacking?] at lacking
      rw [lacking] at fails
      cases fails
  | some member =>
      refine ⟨member, ⟨isGroup, allowed, lacking⟩, ?_⟩
      rw [Block.lacking?] at lacking
      rw [lacking] at fails
      cases fails
      rfl

/-- Binding one block by name fails on an argument, or on the block of a repetition that is cut
before the arguments left and in which a member lacks a value.
-/
theorem bindBlock_error_cases {schema : Schema} {progress : Progress} {first : Argument}
    {rest : List Argument} {e : BindingError}
    (fails : bindBlock schema progress first rest = .error e)
    : e.InArgument
      ∨ ∃ block remaining group member,
          block.first = first
          ∧ block.following ++ remaining = rest
          ∧ schema.Owns block
          ∧ block.CutBefore remaining
          ∧ block.EndsWithout group member
          ∧ e = .ofMissingMember group.name member.name := by
  rcases schema.names_cases first with unknown | ⟨param, declared, names⟩ | ⟨group, declared, names⟩
  · rw [bindBlock_of_unknown unknown, Except.error.injEq] at fails
    subst fails
    refine Or.inl ?_
    split <;> trivial
  · rw [bindBlock_of_simple declared names, except_map_eq_error_iff] at fails
    exact Or.inl (inArgument_of_bindAssigned fails)
  · rw [bindBlock_of_repeating declared names, except_map_eq_error_iff] at fails
    rcases Group.bindRepetition_error_cases fails with inArgument | ⟨following, bindings, bound,
      settled⟩
    · exact Or.inl inArgument
    · have whole := group.continuation_append_drop rest
      have assigned := Group.assignments_eq names
        (congrArg (fun rest => (group.continuation rest).map Prod.snd) whole)
      rw [whole] at assigned
      rw [← assigned] at bound
      obtain ⟨member, ends, same⟩ := Block.exists_endsWithout rfl bound settled
      exact Or.inr ⟨_, _, group, member, rfl, whole, ⟨declared, names⟩,
        Group.cutBefore_continuation names following, ends, same⟩

-----------------------------------------------------------------------------------------
-- The whole run
-----------------------------------------------------------------------------------------

/-- A run fails where a repetition ends in which a member lacks a value. -/
theorem bindArguments_of_endsWithout {schema : Schema} {arguments behind : List Argument}
    {group : Group} {member : Simple}
    (ends : schema.EndsWithout arguments behind group member)
    : ∃ halt,
        bindArguments schema arguments = .error halt
        ∧ halt.error = .ofMissingMember group.name member.name := by
  obtain ⟨leading, named, block, cut, bindable, ends⟩ := ends
  obtain ⟨before, owns, last⟩ := Schema.PartialCut.snoc_iff.1 cut
  rw [before.bindArguments_eq bindable, bindNamed_of_cut _ owns last,
    Block.bindTo_of_lacking _ last.1 ends.isGroup ends.allowed ends.lacking]
  exact ⟨_, rfl, rfl⟩

/-- A run that fails does so on an argument, or where a repetition ends in which a member lacks a
value.
-/
theorem bindArguments_error_cases {schema : Schema} {arguments : List Argument} {halt : Halt}
    (fails : bindArguments schema arguments = .error halt)
    : halt.error.InArgument
      ∨ ∃ behind group member,
          schema.EndsWithout arguments behind group member
          ∧ halt.error = .ofMissingMember group.name member.name := by
  rcases exists_partialCut_of_bindArguments_eq_error fails with walk | ⟨leading, named, first, rest,
    cut, run, failed⟩
  · exact Or.inl (inArgument_of_bindLeading walk)
  · refine (bindBlock_error_cases failed).imp_right ?_
    intro h
    obtain ⟨block, remaining, group, member, rfl, rfl, owns, last, ends, same⟩ := h
    have bindable := (bindBlocks_start_eq_ok_iff cut.declared cut.consecutive.shaped).1 run
    exact ⟨remaining, group, member,
      ⟨leading, named, block, Schema.PartialCut.snoc_iff.2 ⟨cut, owns, last⟩, bindable.1, ends⟩,
      same⟩

end ArgBinding
