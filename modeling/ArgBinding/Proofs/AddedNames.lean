import ArgBinding.Proofs.Grammar

/-! Names added to positional arguments. A positional argument is bound to a plain parameter, and
with the name of that parameter in front of its value it stays in its block: no block in front can
go on with it that did not before, and it brings the same value. So whatever is accepted can be
written with names alone.
-/

namespace ArgBinding

open ArgBinding.Text

/-- The name of the parameter can be written in front of a value. -/
structure Simple.Nameable (param : Simple) : Prop where
  trimmed : Trimmed param.name
  plain : ∀ c ∈ param.name.toList, isNameEnd c = false

/-- The argument with the name of a parameter in front of its value, where it has no name. -/
def Simple.addName (param : Simple) (argument : Argument) : Argument :=
  if argument.name = none then
    Argument.ofText (Argument.render param.name argument.value)
  else
    argument

/-- The block with names added to the arguments of a plain parameter. -/
def Block.addNames (block : Block) : Block :=
  match block.param with
  | .simple param =>
      {
        block with
        first := param.addName block.first
        following := block.following.map param.addName
      }
  | .repeating _ => block

/-- The other argument is the argument itself, or has the name of a plain parameter of the schema in
front of its value.
-/
def Schema.AddsNameTo (schema : Schema) (argument other : Argument) : Prop :=
  if argument.name = none then
    ∃ param,
      .simple param ∈ schema.params
      ∧ other = Argument.ofText (Argument.render param.name argument.value)
  else
    other = argument

/-- The other text is the text itself, or the text is positional and the other has the name of a
plain parameter of the schema in front of its value. A missing text stays missing.
-/
def Schema.AddsName (schema : Schema) (text? other? : Option String) : Prop :=
  match text? with
  | none => other? = none
  | some text =>
      if (Argument.ofText text).isPositional then
        ∃ param,
          .simple param ∈ schema.params
          ∧ other? = some (Argument.render param.name (Argument.ofText text).value)
      else
        other? = some text

-----------------------------------------------------------------------------------------
-- One argument
-----------------------------------------------------------------------------------------

namespace Simple

variable {param : Simple} {argument : Argument}

theorem addName_of_named (named : argument.name ≠ none) : param.addName argument = argument :=
  if_neg named

theorem value_addName (nameable : param.Nameable) (trimmed : Trimmed argument.value)
    : (param.addName argument).value = argument.value := by
  unfold addName
  split
  · rw [Argument.ofText_render nameable.trimmed nameable.plain trimmed]
  · rfl

theorem names_addName (nameable : param.Nameable) (trimmed : Trimmed argument.value)
    (fits : argument.Fits param.key)
    : (param.addName argument).Names param.key := by
  unfold addName
  split
  · rw [Argument.ofText_render nameable.trimmed nameable.plain trimmed]
    rfl
  · rename_i named
    exact fits.resolve_left named

theorem addsNameTo_addName {schema : Schema} (declared : .simple param ∈ schema.params)
    : schema.AddsNameTo argument (param.addName argument) := by
  unfold Schema.AddsNameTo addName
  split
  · exact ⟨param, declared, rfl⟩
  · rfl

end Simple

/-- Texts can be written for arguments to which names were added, by induction on the texts. -/
theorem Schema.exists_texts {schema : Schema} {texts : List (Option String)}
    {arguments : List Argument}
    (added : List.Forall₂ schema.AddsNameTo (Argument.ofTexts texts) arguments)
    : ∃ others,
        List.Forall₂ schema.AddsName texts others ∧ Argument.ofTexts others = arguments := by
  induction texts generalizing arguments with
  | nil =>
      cases added
      exact ⟨[], .nil, rfl⟩
  | cons text? rest ih =>
      cases text? with
      | none =>
          obtain ⟨others, related, rfl⟩ := ih added
          exact ⟨none :: others, .cons rfl related, rfl⟩
      | some text =>
          obtain ⟨argument, behind, adds, addedRest, rfl⟩ := List.forall₂_cons_left_iff.1 added
          obtain ⟨others, related, rfl⟩ := ih addedRest
          unfold AddsNameTo at adds
          split at adds
          · rename_i positional
            obtain ⟨param, declared, rfl⟩ := adds
            refine ⟨some (Argument.render param.name (Argument.ofText text).value) :: others,
              .cons ?_ related, rfl⟩
            have isPositional : (Argument.ofText text).isPositional = true := by
              simp [Argument.isPositional, positional]
            exact (if_pos isPositional).mpr ⟨param, declared, rfl⟩
          · rename_i named
            obtain rfl := adds
            refine ⟨some text :: others, .cons ?_ related, rfl⟩
            have notPositional : ¬ (Argument.ofText text).isPositional = true := by
              simpa [Argument.isPositional] using named
            exact (if_neg notPositional).mpr rfl

-----------------------------------------------------------------------------------------
-- Values
-----------------------------------------------------------------------------------------

/-- What an assignment gives to its parameter. The rest of the argument has no effect on values. -/
def Assignment.given (assignment : Assignment) : Simple × String :=
  (assignment.1, assignment.2.value)

section Given

variable {assignments others : List Assignment}

theorem bindingsOf_of_given (same : others.map Assignment.given = assignments.map Assignment.given)
    : bindingsOf others = bindingsOf assignments := by
  have through (assignments : List Assignment)
      : bindingsOf assignments
        = (assignments.map Assignment.given).flatMap fun (param, text) =>
            (param.valuesFrom text).map fun value => { param := param, value := value } := by
    rw [List.flatMap_map]
    rfl
  rw [through, same, ← through]

theorem assignedValues_of_given (key : String)
    (same : others.map Assignment.given = assignments.map Assignment.given)
    : assignedValues key others = assignedValues key assignments := by
  rw [← boundValues_bindingsOf, bindingsOf_of_given same, boundValues_bindingsOf]

theorem allows_of_given (same : others.map Assignment.given = assignments.map Assignment.given)
    (allowed : ∀ assignment ∈ assignments, assignment.1.Allows assignment.2.value)
    : ∀ assignment ∈ others, assignment.1.Allows assignment.2.value := by
  intro assignment member
  have given := List.mem_map_of_mem (f := Assignment.given) member
  rw [same] at given
  obtain ⟨original, isOriginal, equal⟩ := List.mem_map.1 given
  obtain ⟨sameParam, sameText⟩ := Prod.mk.inj equal
  exact sameParam ▸ sameText ▸ allowed original isOriginal

end Given

-----------------------------------------------------------------------------------------
-- One block
-----------------------------------------------------------------------------------------

/-- The name of the plain parameter of the block can be written in front of all its values. -/
def Block.Nameable (block : Block) : Prop :=
  ∀ param,
    block.param = .simple param
    → param.Nameable
      ∧ ∀ argument ∈ block.arguments, argument.Fits param.key ∧ Trimmed argument.value

namespace Block

variable {block : Block} {param : Simple} {group : Group}

theorem addNames_of_repeating (isGroup : block.param = .repeating group)
    : block.addNames = block := by
  unfold addNames
  rw [isGroup]

@[simp]
theorem param_addNames (block : Block) : block.addNames.param = block.param := by
  obtain ⟨param, first, following⟩ := block
  cases param <;> rfl

theorem arguments_addNames (isParam : block.param = .simple param)
    : block.addNames.arguments = block.arguments.map param.addName := by
  unfold addNames
  rw [isParam]
  rfl

theorem first_addNames_of_named (named : block.first.name ≠ none)
    : block.addNames.first = block.first := by
  obtain ⟨param, first, following⟩ := block
  cases param with
  | repeating group => rfl
  | simple param => exact Simple.addName_of_named named

/-- Names change nothing in what the parameters of a block are given. -/
theorem given_assignments_addNames (nameable : block.Nameable)
    : block.addNames.assignments.map Assignment.given
      = block.assignments.map Assignment.given := by
  cases isParam : block.param with
  | repeating group => rw [addNames_of_repeating isParam]
  | simple param =>
      obtain ⟨writable, given⟩ := nameable param isParam
      simp only [assignments, param_addNames, isParam, arguments_addNames isParam, List.map_map]
      refine List.map_congr_left ?_
      intro argument isArgument
      exact congrArg (param, ·) (Simple.value_addName writable (given argument isArgument).2)

theorem given_plainAssignments_addNames (nameable : block.Nameable)
    : block.addNames.plainAssignments.map Assignment.given
      = block.plainAssignments.map Assignment.given := by
  have given := given_assignments_addNames nameable
  unfold plainAssignments
  rw [param_addNames]
  cases block.param with
  | repeating group => rfl
  | simple param => exact given

theorem repetition?_addNames (block : Block) : block.addNames.repetition? = block.repetition? := by
  obtain ⟨param, first, following⟩ := block
  cases param <;> rfl

theorem Filled.addNames (filled : block.Filled) : block.addNames.Filled := by
  obtain ⟨param, first, following⟩ := block
  cases param <;> exact filled

theorem Allowed.addNames (allowed : block.Allowed) (nameable : block.Nameable)
    : block.addNames.Allowed :=
  allows_of_given (given_assignments_addNames nameable) allowed

/-- All arguments of the block are named then, as those of a repetition are in any case. -/
theorem named_addNames (nameable : block.Nameable) (shaped : block.Shaped)
    (names : ∀ group, block.param = .repeating group → block.first.Names group.key)
    : ∀ argument ∈ block.addNames.arguments, argument.name ≠ none := by
  cases isParam : block.param with
  | repeating group =>
      rw [addNames_of_repeating isParam]
      exact named_of_repeating shaped isParam (isParam ▸ names group isParam)
  | simple param =>
      obtain ⟨writable, given⟩ := nameable param isParam
      rw [arguments_addNames isParam]
      intro argument isArgument
      obtain ⟨original, isOriginal, rfl⟩ := List.mem_map.1 isArgument
      obtain ⟨fits, trimmed⟩ := given original isOriginal
      exact (Simple.names_addName writable trimmed fits).name_ne_none

theorem Shaped.addNames (shaped : block.Shaped) (nameable : block.Nameable)
    : block.addNames.Shaped := by
  cases isParam : block.param with
  | repeating group =>
      rw [addNames_of_repeating isParam]
      exact shaped
  | simple param =>
      obtain ⟨writable, given⟩ := nameable param isParam
      obtain ⟨_, first, following⟩ := block
      cases isParam
      intro argument isArgument
      obtain ⟨original, isOriginal, rfl⟩ := List.mem_map.1 isArgument
      obtain ⟨fits, trimmed⟩ := given original (List.mem_cons_of_mem _ isOriginal)
      exact ⟨(shaped original isOriginal).1, Or.inr (Simple.names_addName writable trimmed fits)⟩

/-- The block stops before the same named argument as before. Where it did not care for a name, it
cannot go on in any case.
-/
theorem StopsBefore.addNames {next other : Argument} (stops : block.StopsBefore next)
    (same : next.name ≠ none → other = next)
    : block.addNames.StopsBefore other := by
  obtain ⟨param, first, following⟩ := block
  cases param with
  | repeating group => exact same stops.1 ▸ stops
  | simple param =>
      intro several fits
      have named : next.name ≠ none := fun positional => stops several (Or.inl positional)
      exact stops several (same named ▸ fits)

end Block

-----------------------------------------------------------------------------------------
-- Cuts into blocks
-----------------------------------------------------------------------------------------

section Blocks

variable {schema : Schema} {blocks leading named : List Block} {arguments : List Argument}

theorem given_plainAssignments_map (nameable : ∀ block ∈ blocks, block.Nameable)
    : (plainAssignments (blocks.map Block.addNames)).map Assignment.given
      = (plainAssignments blocks).map Assignment.given := by
  simp only [plainAssignments, List.flatMap_map, List.map_flatMap]
  refine List.flatMap_congr ?_
  exact fun block member => Block.given_plainAssignments_addNames (nameable block member)

/-- Blocks bring about the same with names added. -/
theorem progressOf_map_addNames (nameable : ∀ block ∈ blocks, block.Nameable)
    : progressOf (blocks.map Block.addNames) = progressOf blocks := by
  unfold progressOf
  rw [bindingsOf_of_given (given_plainAssignments_map nameable), List.filterMap_map]
  simp only [Function.comp_def, Block.repetition?_addNames]

theorem Schema.Admits.addNames (admitted : schema.Admits blocks)
    (nameable : ∀ block ∈ blocks, block.Nameable)
    : schema.Admits (blocks.map Block.addNames) := by
  refine ⟨?_, ?_, ?_, ?_⟩
  · refine List.forall_mem_map.2 ?_
    exact fun block member => (admitted.allowed block member).addNames (nameable block member)
  · refine List.pairwise_map.2 (admitted.once.imp ?_)
    intro earlier later apart
    simpa only [Block.Apart, Block.param_addNames] using apart
  · exact List.forall_mem_map.2 fun block member => (admitted.filled block member).addNames
  · intro param isDeclared required
    rw [assignedValues_of_given param.key (given_plainAssignments_map nameable)]
    exact admitted.supplied param isDeclared required

theorem Schema.Owns.addNames {block : Block} (owns : schema.Owns block)
    : schema.Owns block.addNames := by
  unfold Owns
  rw [Block.first_addNames_of_named owns.2.name_ne_none, Block.param_addNames]
  exact owns

/-- Blocks stay cut where they were, by induction on the blocks: the first argument behind a block
is the same if it was named, and a block that stops before a positional one stops before any.
-/
theorem Consecutive.addNames (consecutive : Consecutive blocks [])
    (nameable : ∀ block ∈ blocks, block.Nameable)
    : Consecutive (blocks.map Block.addNames) [] := by
  induction blocks with
  | nil => trivial
  | cons block rest ih =>
      obtain ⟨nameableFirst, nameableRest⟩ := List.forall_mem_cons.1 nameable
      obtain ⟨⟨shaped, stops⟩, consecutiveRest⟩ := consecutive
      refine ⟨⟨shaped.addNames nameableFirst, ?_⟩, ih consecutiveRest nameableRest⟩
      simp only [List.append_nil, head?_flatMap_arguments, List.head?_map] at stops ⊢
      cases isFollowing : rest.head? with
      | none => simp
      | some following =>
          have stops := stops following.first (by simp [isFollowing])
          simpa using stops.addNames Block.first_addNames_of_named

/-- The first argument of a leading block fits its parameter with a name as well. -/
theorem Block.Nameable.fits_first {block : Block} (nameable : block.Nameable)
    (required : block.param.isRequired = true)
    : block.addNames.first.Fits block.param.key := by
  cases isParam : block.param with
  | repeating group => simp [isParam, Param.isRequired] at required
  | simple param =>
      obtain ⟨writable, given⟩ := nameable param isParam
      obtain ⟨fits, trimmed⟩ := given block.first (by simp [Block.arguments])
      have isFirst : block.addNames.first = param.addName block.first :=
        (List.cons.inj (Block.arguments_addNames isParam)).1
      exact Or.inr (isFirst ▸ Simple.names_addName writable trimmed fits)

theorem Schema.Cut.addNames (cut : schema.Cut arguments leading named)
    (nameable : ∀ block ∈ leading ++ named, block.Nameable)
    : schema.Cut (((leading ++ named).map Block.addNames).flatMap Block.arguments)
        (leading.map Block.addNames) (named.map Block.addNames) := by
  refine ⟨?_, ?_, ?_, ?_, ?_, ?_⟩
  · rw [List.map_append]
  · rw [List.map_map]
    simpa only [Function.comp_def, Block.param_addNames] using cut.walked
  · refine List.forall_mem_map.2 ?_
    intro block member
    have required := (cut.met block member).1
    rw [Block.param_addNames]
    exact ⟨required, (nameable block (by simp [member])).fits_first required⟩
  · intro param isNext block isFirst
    rw [List.length_map] at isNext
    rw [List.head?_map] at isFirst
    obtain ⟨original, isOriginal, rfl⟩ := Option.map_eq_some_iff.1 isFirst
    have owns := cut.owned original (List.mem_of_mem_head? isOriginal)
    rw [Block.first_addNames_of_named owns.2.name_ne_none]
    exact cut.left param isNext original isOriginal
  · exact List.forall_mem_map.2 fun block member => (cut.owned block member).addNames
  · rw [← List.map_append]
    exact cut.consecutive.addNames nameable

/-- The arguments of blocks with names added are those that were there, or have a name in front. -/
theorem forall₂_addsNameTo (declared : ∀ block ∈ blocks, block.param ∈ schema.params)
    (named
      : ∀ block ∈ blocks,
          ∀ group,
            block.param = .repeating group → ∀ argument ∈ block.arguments, argument.name ≠ none)
    : List.Forall₂ schema.AddsNameTo (blocks.flatMap Block.arguments)
        ((blocks.map Block.addNames).flatMap Block.arguments) := by
  induction blocks with
  | nil => exact .nil
  | cons block rest ih =>
      obtain ⟨isDeclared, declaredRest⟩ := List.forall_mem_cons.1 declared
      obtain ⟨namedFirst, namedRest⟩ := List.forall_mem_cons.1 named
      refine List.rel_append ?_ (ih declaredRest namedRest)
      cases isParam : block.param with
      | repeating group =>
          rw [Block.addNames_of_repeating isParam]
          refine List.forall₂_same.2 ?_
          exact fun argument member => (if_neg (namedFirst group isParam argument member)).mpr rfl
      | simple param =>
          rw [Block.arguments_addNames isParam]
          refine List.forall₂_map_right_iff.2 (List.forall₂_same.2 ?_)
          exact fun argument _ => Simple.addsNameTo_addName (isParam ▸ isDeclared)

end Blocks

-----------------------------------------------------------------------------------------
-- Calls
-----------------------------------------------------------------------------------------

/-- The blocks of a cut of texts can have names added where the plain parameters can. -/
theorem Schema.Cut.nameable {schema : Schema} {texts : List (Option String)}
    {leading named : List Block} (cut : schema.Cut (Argument.ofTexts texts) leading named)
    (nameable : ∀ param, .simple param ∈ schema.params → param.Nameable)
    : ∀ block ∈ leading ++ named, block.Nameable := by
  intro block member param isParam
  refine ⟨nameable param (isParam ▸ cut.declared block member), ?_⟩
  exact fun argument isArgument =>
    ⟨cut.fits member isParam argument isArgument, cut.trimmed block member argument isArgument⟩

/-- A positional argument is short for a named one: where a call succeeds on accepted declarations
whose names can be written, names can be put in front of all positional arguments such that it
succeeds with the same result. Witness: the blocks of its cut with names added.
-/
theorem bind_names_added {entries : List Entry} {schema : Schema} {replacer : Replacer}
    {arguments : List (Option String)} {bound : Bound}
    (accepted : Schema.declare entries = .ok schema)
    (nameable : ∀ param, .simple param ∈ schema.params → param.Nameable)
    (isBound : (bind entries replacer arguments).result = .ok bound)
    : ∃ others,
        List.Forall₂ schema.AddsName arguments others
        ∧ (bind entries replacer others).result = .ok bound := by
  obtain ⟨-, leading, named, cut, admitted, rfl⟩ := (bind_result_eq_ok_iff_cut accepted).1 isBound
  have writable := cut.nameable nameable
  have added := @forall₂_addsNameTo schema (leading ++ named) cut.declared
    fun block member group isGroup =>
      Block.named_of_repeating (cut.shaped block member) isGroup
        (isGroup ▸ cut.names_of_repeating member isGroup)
  rw [cut.whole] at added
  obtain ⟨others, related, texts⟩ := Schema.exists_texts added
  have notUsage : others ≠ [some usageRequest] := by
    intro usage
    have isArgument : Argument.ofText usageRequest
        ∈ ((leading ++ named).map Block.addNames).flatMap Block.arguments := by
      rw [← texts, usage]
      exact List.mem_singleton.2 rfl
    obtain ⟨block, isBlock, isArgument⟩ := List.mem_flatMap.1 isArgument
    obtain ⟨original, member, rfl⟩ := List.mem_map.1 isBlock
    exact Block.named_addNames (writable original member) (cut.shaped original member)
      (fun group => cut.names_of_repeating member) _ isArgument (by decide)
  refine ⟨others, related, (bind_result_eq_ok_iff_cut accepted).2 ⟨notUsage,
    leading.map Block.addNames, named.map Block.addNames, ?_, ?_, ?_⟩⟩
  · rw [texts]
    exact cut.addNames writable
  · rw [← List.map_append]
    exact admitted.addNames writable
  · rw [← List.map_append, progressOf_map_addNames writable]

/-- The positional account and the positional tag of a trade can be named. -/
theorem trade_names_added
    : Schema.declare Trade.entries = .ok Trade.schema
      ∧ (∀ param, .simple param ∈ Trade.schema.params → param.Nameable)
      ∧ ∃ bound others,
          (bind Trade.entries id Trade.arguments).result = .ok bound
          ∧ List.Forall₂ Trade.schema.AddsName Trade.arguments others
          ∧ (bind Trade.entries id others).result = .ok bound := by
  have each : ∀ param ∈ simpleParams Trade.schema.params,
      Trimmed param.name ∧ param.name.toList.all (!isNameEnd ·) = true := by
    decide +kernel
  have nameable : ∀ param, .simple param ∈ Trade.schema.params → param.Nameable := by
    intro param declared
    obtain ⟨trimmed, unended⟩ := each param (mem_simpleParams.2 declared)
    exact ⟨trimmed, by simpa using unended⟩
  obtain ⟨bound, bound_ok⟩ := Trade.exists_bound
  obtain ⟨others, related, again⟩ := bind_names_added Trade.declare_entries nameable bound_ok
  exact ⟨Trade.declare_entries, nameable, bound, others, bound_ok, related, again⟩

end ArgBinding
