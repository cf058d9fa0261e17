import ArgBinding.Proofs.Blocks

/-! Binding one block by name. What is taken from the front of the arguments is the block that
starts with the first of them and is cut before the arguments that are left.
-/

namespace ArgBinding

open ArgBinding.Text

/-- A repetition before which no positional argument stands is bound and settled in turn. -/
theorem Group.bindRepetition_of_named {group : Group} {assignments : List Assignment}
    {next? : Option Argument} (named : ∀ next ∈ next?, next.name ≠ none)
    : group.bindRepetition assignments next?
      = (bindAssigned assignments []
          >>= fun bindings =>
            settleAll (.ofMissingMember group.name) bindings group.params) := by
  unfold bindRepetition
  congr 1
  funext bindings
  cases next? with
  | none => rfl
  | some next =>
      have notPositional : next.isPositional = false := by
        simpa [Argument.isPositional, Option.isSome_iff_ne_none] using named next rfl
      simp [notPositional]

theorem Group.named_of_bindRepetition {group : Group} {assignments : List Assignment}
    {next? : Option Argument} {table : Table}
    (bound : group.bindRepetition assignments next? = .ok table)
    : ∀ next ∈ next?, next.name ≠ none := by
  intro next isNext positional
  obtain rfl : next? = some next := isNext
  simp [bindRepetition, Argument.isPositional, positional, except_bind_eq_ok_iff] at bound

/-- The arguments of a repetition are its identity with the first and those that go on with it. -/
theorem Group.assignments_eq {group : Group} {first : Argument} {following behind : List Argument}
    (identity : first.Names group.key)
    (whole : (group.continuation (following ++ behind)).map Prod.snd = following)
    : Block.assignments ⟨.repeating group, first, following⟩
      = (group.identity, first) :: group.continuation (following ++ behind) := by
  have found : group.find? first.name = some group.identity :=
    find?_eq_some_iff.2 ⟨by simp [params], identity⟩
  have others : following.filterMap group.assignment?
      = group.continuation (following ++ behind) := by
    conv_lhs => rw [← whole]
    exact filterMap_assignment?_continuationFrom group _ _
  simp only [Block.assignments, Block.arguments, List.filterMap_cons, others, assignment?, found,
    Option.map_some]

theorem Group.continuation_append_drop (group : Group) (rest : List Argument)
    : (group.continuation rest).map Prod.snd ++ rest.drop (group.continuation rest).length
      = rest := by
  have whole := List.prefix_iff_eq_append.1
    (group.continuationFrom_prefix [group.identity.key] rest)
  rwa [List.length_map] at whole

/-- The arguments that go on with a repetition are cut before a named argument behind them. -/
theorem Group.cutBefore_continuation {group : Group} {first : Argument} {rest : List Argument}
    (identity : first.Names group.key)
    (named : ∀ next ∈ (rest.drop (group.continuation rest).length).head?, next.name ≠ none)
    : Block.CutBefore ⟨.repeating group, first, (group.continuation rest).map Prod.snd⟩
        (rest.drop (group.continuation rest).length) :=
  (cutBefore_iff identity).2 ⟨by rw [group.continuation_append_drop], named⟩

-----------------------------------------------------------------------------------------
-- What the first argument names
-----------------------------------------------------------------------------------------

section Step

variable {schema : Schema} {first : Argument}

/-- Binding by name refuses an argument that names no declared parameter. -/
theorem bindBlock_of_unknown (unknown : ∀ param ∈ schema.params, ¬ first.Names param.key)
    (progress : Progress) (rest : List Argument)
    : bindBlock schema progress first rest
      = .error
          (if first.name = none then .ambiguous first.written else .unexpected first.written) := by
  unfold bindBlock
  cases named : first.name with
  | none => rfl
  | some name =>
      cases found : schema.find? name with
      | none => simp only [found, reduceCtorEq, if_false]
      | some param =>
          obtain ⟨declared, names⟩ := Schema.exists_find?_iff.1 ⟨name, named, found⟩
          exact absurd names (unknown param declared)

/-- A plain parameter binds the argument that names it and those that go on with it. -/
theorem bindBlock_of_simple {param : Simple} (declared : .simple param ∈ schema.params)
    (names : first.Names param.key) (progress : Progress) (rest : List Argument)
    : bindBlock schema progress first rest
      = (bindAssigned ((first :: param.continuation rest).map (param, ·)) progress.bindings).map
          fun bindings =>
            ({ progress with bindings := bindings },
              rest.drop (param.continuation rest).length) := by
  obtain ⟨name, named, found⟩ := Schema.exists_find?_iff.2 ⟨declared, names⟩
  have takes := (param.takes_iff_fits first).2 (Or.inr names)
  simp only [bindBlock, named, found, Simple.taken_cons takes, List.length_cons,
    List.drop_succ_cons]

/-- A group binds the argument that names it, and those that go on with it, as a repetition. -/
theorem bindBlock_of_repeating {group : Group} (declared : .repeating group ∈ schema.params)
    (names : first.Names group.key) (progress : Progress) (rest : List Argument)
    : bindBlock schema progress first rest
      = (group.bindRepetition ((group.identity, first) :: group.continuation rest)
            (rest.drop (group.continuation rest).length).head?).map
          fun table =>
            ({ progress with repetitions := progress.repetitions ++ [(group, table)] },
              rest.drop (group.continuation rest).length) := by
  obtain ⟨name, named, found⟩ := Schema.exists_find?_iff.2 ⟨declared, names⟩
  have takes := (group.identity.takes_iff_fits first).2 (Or.inr names)
  simp only [bindBlock, named, found, Group.assigned_cons takes, List.length_cons,
    List.drop_succ_cons]

end Step

-----------------------------------------------------------------------------------------
-- Blocks
-----------------------------------------------------------------------------------------

/-- Binding by name binds the block that is cut from the front of the arguments. -/
theorem bindBlock_of_cut {schema : Schema} {block : Block} {behind : List Argument}
    (progress : Progress) (owned : schema.Owns block) (cut : block.CutBefore behind)
    : bindBlock schema progress block.first (block.following ++ behind)
      = (block.bindTo progress).map (·, behind) := by
  obtain ⟨declared, names⟩ := owned
  obtain ⟨param, first, following⟩ := block
  cases param with
  | simple param =>
      have whole : param.continuation (following ++ behind) = following :=
        Simple.continuation_eq_iff.2 cut
      rw [bindBlock_of_simple declared names, whole, List.drop_left]
      simp only [Block.bindTo, Block.assignments, Block.arguments]
      cases bindAssigned ((first :: following).map (param, ·)) progress.bindings <;> rfl
  | repeating group =>
      obtain ⟨whole, positional⟩ := (Group.cutBefore_iff names).1 cut
      have size : (group.continuation (following ++ behind)).length = following.length := by
        rw [← List.length_map Prod.snd, whole]
      rw [bindBlock_of_repeating declared names, size, List.drop_left,
        Group.bindRepetition_of_named positional]
      simp only [Block.bindTo, Group.assignments_eq names whole]
      cases bindAssigned ((group.identity, first) :: group.continuation (following ++ behind)) []
      with
      | error error => rfl
      | ok bindings =>
          dsimp only [Bind.bind, Except.bind]
          cases settleAll (.ofMissingMember group.name) bindings group.params <;> rfl

/-- Where binding by name takes arguments, they are a block that is cut before those left. -/
theorem exists_block_of_bindBlock {schema : Schema} {progress next : Progress} {first : Argument}
    {rest remaining : List Argument}
    (taken : bindBlock schema progress first rest = .ok (next, remaining))
    : ∃ block : Block,
        block.first = first
        ∧ block.following ++ remaining = rest
        ∧ schema.Owns block
        ∧ block.CutBefore remaining := by
  rcases schema.names_cases first with unknown | ⟨param, declared, names⟩ | ⟨group, declared, names⟩
  · rw [bindBlock_of_unknown unknown] at taken
    cases taken
  · rw [bindBlock_of_simple declared names, except_map_eq_ok_iff] at taken
    obtain ⟨bindings, -, same⟩ := taken
    cases same
    have whole := param.continuation_append_drop rest
    exact ⟨⟨.simple param, first, param.continuation rest⟩, rfl, whole, ⟨declared, names⟩,
      Simple.continuation_eq_iff.1 (by rw [whole])⟩
  · rw [bindBlock_of_repeating declared names, except_map_eq_ok_iff] at taken
    obtain ⟨table, bound, same⟩ := taken
    cases same
    exact ⟨⟨.repeating group, first, (group.continuation rest).map Prod.snd⟩, rfl,
      group.continuation_append_drop rest, ⟨declared, names⟩,
      Group.cutBefore_continuation names (Group.named_of_bindRepetition bound)⟩

/-- Binding by name takes one block from the front of the arguments: the one that starts with the
first of them, belongs to the schema and is cut before the arguments that are left.
-/
theorem bindBlock_eq_ok_iff {schema : Schema} {progress next : Progress} {first : Argument}
    {rest remaining : List Argument}
    : bindBlock schema progress first rest = .ok (next, remaining)
      ↔ ∃ block : Block,
          block.first = first
          ∧ block.following ++ remaining = rest
          ∧ schema.Owns block
          ∧ block.CutBefore remaining
          ∧ block.bindTo progress = .ok next := by
  constructor
  · intro taken
    obtain ⟨block, rfl, rfl, owned, cut⟩ := exists_block_of_bindBlock taken
    rw [bindBlock_of_cut progress owned cut, except_map_eq_ok_iff] at taken
    obtain ⟨reached, bound, same⟩ := taken
    cases same
    exact ⟨block, rfl, rfl, owned, cut, bound⟩
  · intro h
    rcases h with ⟨block, rfl, rfl, owned, cut, bound⟩
    rw [bindBlock_of_cut progress owned cut, bound]
    rfl

end ArgBinding
