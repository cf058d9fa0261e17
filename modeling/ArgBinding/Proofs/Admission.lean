import ArgBinding.Proofs.Completion
import ArgBinding.Proofs.Runs

/-! Which blocks can be bound, said without binding them: all their values are allowed, a parameter
of a single value has one block at most, and nothing required is missing. The values that result
are those of the blocks in order.
-/

namespace ArgBinding

open ArgBinding.Text

namespace Block

/-- The arguments of the block that are bound to a plain parameter. -/
def plainAssignments (block : Block) : List Assignment :=
  match block.param with
  | .simple _ => block.assignments
  | .repeating _ => []

/-- The values that the members of a group have after a block of the group. -/
def table (block : Block) (group : Group) : Table :=
  group.params.map fun member =>
    (member.key, member.orDefault (assignedValues member.key block.assignments))

/-- The repetition that the block makes, where it is one of a group. -/
def repetition? (block : Block) : Option (Group × Table) :=
  match block.param with
  | .simple _ => none
  | .repeating group => some (group, block.table group)

/-- All values in the block are allowed. -/
def Allowed (block : Block) : Prop :=
  ∀ assignment ∈ block.assignments, assignment.1.Allows assignment.2.value

/-- In a repetition every required member has a value. -/
def Filled (block : Block) : Prop :=
  match block.param with
  | .simple _ => True
  | .repeating group =>
      ∀ member ∈ group.params,
        member.isRequired = true → assignedValues member.key block.assignments ≠ []

/-- The blocks do not go to one parameter of a single value. -/
def Apart (earlier later : Block) : Prop :=
  ∀ param,
    earlier.param = .simple param → later.param = .simple param → param.allowMultiple = true

end Block

/-- The arguments of some blocks that are bound to plain parameters, in order. -/
def plainAssignments (blocks : List Block) : List Assignment :=
  blocks.flatMap Block.plainAssignments

/-- The blocks can be bound and leave nothing required without a value. -/
structure Schema.Admits (schema : Schema) (blocks : List Block) : Prop where
  allowed : ∀ block ∈ blocks, block.Allowed
  once : blocks.Pairwise Block.Apart
  filled : ∀ block ∈ blocks, block.Filled
  supplied
    : ∀ param,
        .simple param ∈ schema.params
        → param.isRequired = true
        → assignedValues param.key (plainAssignments blocks) ≠ []

/-- The blocks can be bound one behind the other. In the end something required may be missing. -/
structure Bindable (blocks : List Block) : Prop where
  allowed : ∀ block ∈ blocks, block.Allowed
  once : blocks.Pairwise Block.Apart
  filled : ∀ block ∈ blocks, block.Filled

theorem Schema.admits_iff {schema : Schema} {blocks : List Block}
    : schema.Admits blocks
      ↔ Bindable blocks
        ∧ ∀ param,
            .simple param ∈ schema.params
            → param.isRequired = true
            → assignedValues param.key (plainAssignments blocks) ≠ [] :=
  ⟨fun h => ⟨⟨h.allowed, h.once, h.filled⟩, h.supplied⟩,
    fun h => ⟨h.1.allowed, h.1.once, h.1.filled, h.2⟩⟩

/-- The progress that blocks make when all of them are bound. -/
def progressOf (blocks : List Block) : Progress :=
  {
    bindings := bindingsOf (plainAssignments blocks)
    repetitions := blocks.filterMap Block.repetition?
  }

theorem Group.assignment?_eq_some_iff {group : Group} {argument : Argument}
    {assignment : Assignment}
    : group.assignment? argument = some assignment
      ↔ assignment.1 ∈ group.params
        ∧ argument.Names assignment.1.key
        ∧ assignment.2 = argument := by
  obtain ⟨param, bound⟩ := assignment
  simp only [assignment?, Option.map_eq_some_iff, find?_eq_some_iff, Prod.mk.injEq]
  constructor
  · intro h
    rcases h with ⟨_, ⟨member, names⟩, rfl, rfl⟩
    exact ⟨member, names, rfl⟩
  · intro h
    rcases h with ⟨member, names, rfl⟩
    exact ⟨param, ⟨member, names⟩, rfl, rfl⟩

/-- Arguments that may stand in one repetition make assignments that may be bound together. -/
theorem Group.pairwise_filterMap_assignment? {group : Group} {arguments : List Argument}
    (apart : arguments.Pairwise group.Apart)
    : (arguments.filterMap group.assignment?).Pairwise Assignment.Apart := by
  refine List.Pairwise.filterMap _ ?_ apart
  intro earlier later compatible x isEarlier y isLater same
  obtain ⟨xMember, xNames, -⟩ := Group.assignment?_eq_some_iff.1 isEarlier
  obtain ⟨yMember, yNames, -⟩ := Group.assignment?_eq_some_iff.1 isLater
  exact compatible x.1 xMember xNames (same ▸ yNames)

theorem Block.mem_arguments_of_mem_assignments {block : Block} {x : Assignment}
    (member : x ∈ block.assignments)
    : x.2 ∈ block.arguments := by
  obtain ⟨param, first, following⟩ := block
  cases param with
  | simple param =>
      obtain ⟨argument, isArgument, rfl⟩ := List.mem_map.1 member
      exact isArgument
  | repeating group =>
      obtain ⟨argument, isArgument, same⟩ := List.mem_filterMap.1 member
      obtain ⟨-, -, rfl⟩ := Group.assignment?_eq_some_iff.1 same
      exact isArgument

theorem Block.mem_assignments_of_mem_plainAssignments {block : Block} {x : Assignment}
    (member : x ∈ block.plainAssignments)
    : x ∈ block.assignments := by
  obtain ⟨param, first, following⟩ := block
  cases param with
  | simple param => exact member
  | repeating group => cases member

theorem Block.mem_params_of_mem_assignments {block : Block} {group : Group} {x : Assignment}
    (isGroup : block.param = .repeating group) (member : x ∈ block.assignments)
    : x.1 ∈ group.params := by
  obtain ⟨param, first, following⟩ := block
  cases isGroup
  obtain ⟨argument, -, isAssignment⟩ := List.mem_filterMap.1 member
  exact (Group.assignment?_eq_some_iff.1 isAssignment).1

theorem Block.eq_of_mem_assignments {block : Block} {group : Group} {member : Simple}
    {x : Assignment} (isGroup : block.param = .repeating group) (isMember : member ∈ group.params)
    (isAssigned : x ∈ block.assignments) (same : x.1.key = member.key)
    : x.1 = member :=
  Group.eq_of_key (mem_params_of_mem_assignments isGroup isAssigned) isMember same

/-- The arguments of a repetition go to the same member where they go to the same key. -/
theorem Block.coherent_of_repeating {block : Block} {group : Group}
    (isGroup : block.param = .repeating group)
    : ∀ x ∈ block.assignments, ∀ y ∈ block.assignments, x.1.key = y.1.key → x.1 = y.1 :=
  fun _ isX _ isY => eq_of_mem_assignments isGroup (mem_params_of_mem_assignments isGroup isY) isX

/-- Binding a block binds its plain assignments or completes one repetition. A repetition cannot
fail by naming a parameter of a single value twice, since its arguments stand apart.
-/
theorem Block.bindTo_eq_ok_iff {block : Block} {progress next : Progress} (shaped : block.Shaped)
    : block.bindTo progress = .ok next
      ↔ bindAssigned block.plainAssignments progress.bindings = .ok next.bindings
        ∧ (∀ group, block.param = .repeating group → block.Allowed ∧ block.Filled)
        ∧ next.repetitions = progress.repetitions ++ block.repetition?.toList := by
  obtain ⟨param, first, following⟩ := block
  obtain ⟨bindings, repetitions⟩ := next
  cases param with
  | simple param =>
      simp only [bindTo, plainAssignments, except_map_eq_ok_iff, reduceCtorEq, false_implies,
        implies_true, true_and, repetition?, Option.toList_none, List.append_nil,
        Progress.mk.injEq]
      constructor
      · intro h
        rcases h with ⟨reached, bound, rfl, rfl⟩
        exact ⟨bound, rfl⟩
      · intro h
        rcases h with ⟨bound, rfl⟩
        exact ⟨_, bound, rfl, rfl⟩
  | repeating group =>
      have coherent := @Block.coherent_of_repeating
        ⟨.repeating group, first, following⟩ group rfl
      have apart := Group.pairwise_filterMap_assignment? shaped.2
      simp only [bindTo, except_bind_eq_ok_iff, bindAssigned_eq_ok_iff coherent,
        settleAll_eq_ok_iff, plainAssignments, Param.repeating.injEq, forall_eq', Allowed, Filled,
        repetition?, Option.toList_some, table, Except.ok.injEq, Progress.mk.injEq]
      constructor
      · intro h
        rcases h with ⟨_, ⟨allowed, -, -, rfl⟩, _, ⟨filled, rfl⟩, rfl, rfl⟩
        simp only [List.nil_append, boundValues_bindingsOf] at filled
        exact ⟨rfl, ⟨allowed, filled⟩, by simp only [List.nil_append, boundValues_bindingsOf]⟩
      · intro h
        rcases h with ⟨same, ⟨allowed, filled⟩, rfl⟩
        have same : progress.bindings = bindings := Except.ok.inj same
        refine ⟨_, ⟨allowed, apart, by simp [boundValues], rfl⟩, _, ⟨?_, rfl⟩, same, ?_⟩
        · simpa only [List.nil_append, boundValues_bindingsOf] using filled
        · simp only [List.nil_append, boundValues_bindingsOf]

/-- Binding blocks binds their plain assignments and completes their repetitions, by induction on
the blocks.
-/
theorem bindBlocks_eq_ok_iff {blocks : List Block} {progress last : Progress}
    (shaped : ∀ block ∈ blocks, block.Shaped)
    : bindBlocks blocks progress = .ok last
      ↔ bindAssigned (plainAssignments blocks) progress.bindings = .ok last.bindings
        ∧ (∀ block ∈ blocks,
            ∀ group, block.param = .repeating group → block.Allowed ∧ block.Filled)
        ∧ last.repetitions
          = progress.repetitions ++ blocks.filterMap Block.repetition? := by
  induction blocks generalizing progress with
  | nil =>
      obtain ⟨bindings, repetitions⟩ := progress
      obtain ⟨lastBindings, lastRepetitions⟩ := last
      simp [bindBlocks, plainAssignments, bindAssigned, pure, Except.pure, eq_comm]
  | cons block rest ih =>
      obtain ⟨shapedFirst, shapedRest⟩ := List.forall_mem_cons.1 shaped
      rw [bindBlocks_cons_eq_ok_iff, plainAssignments, List.flatMap_cons, bindAssigned_append,
        except_bind_eq_ok_iff, ← plainAssignments]
      simp only [Block.bindTo_eq_ok_iff shapedFirst, ih shapedRest, List.mem_cons,
        forall_eq_or_imp, List.filterMap_cons]
      constructor
      · intro h
        rcases h with ⟨next, ⟨bound, sound, added⟩, boundRest, soundRest, addedRest⟩
        refine ⟨⟨next.bindings, bound, boundRest⟩, ⟨sound, soundRest⟩, ?_⟩
        rw [addedRest, added]
        cases block.repetition? <;> simp
      · intro h
        rcases h with ⟨⟨reached, bound, boundRest⟩, ⟨sound, soundRest⟩, added⟩
        refine ⟨⟨reached, progress.repetitions ++ block.repetition?.toList⟩,
          ⟨bound, sound, rfl⟩, boundRest, soundRest, ?_⟩
        rw [added]
        cases block.repetition? <;> simp

theorem mem_params_of_mem_plainAssignments {schema : Schema} {blocks : List Block}
    {assignment : Assignment} (declared : ∀ block ∈ blocks, block.param ∈ schema.params)
    (member : assignment ∈ plainAssignments blocks)
    : .simple assignment.1 ∈ schema.params := by
  obtain ⟨block, isBlock, isAssigned⟩ := List.mem_flatMap.1 member
  have isDeclared := declared block isBlock
  obtain ⟨param, first, following⟩ := block
  cases param with
  | repeating group => simp [Block.plainAssignments] at isAssigned
  | simple param =>
      obtain ⟨argument, -, rfl⟩ := List.mem_map.1 isAssigned
      exact isDeclared

theorem eq_of_mem_plainAssignments {schema : Schema} {blocks : List Block} {param : Simple}
    {assignment : Assignment} (declared : ∀ block ∈ blocks, block.param ∈ schema.params)
    (isDeclared : .simple param ∈ schema.params) (member : assignment ∈ plainAssignments blocks)
    (same : assignment.1.key = param.key)
    : assignment.1 = param :=
  Param.simple.inj
    (Schema.eq_of_key (mem_params_of_mem_plainAssignments declared member) isDeclared same)

theorem allows_of_mem_plainAssignments {blocks : List Block} {assignment : Assignment}
    (allowed : ∀ block ∈ blocks, block.Allowed) (member : assignment ∈ plainAssignments blocks)
    : assignment.1.Allows assignment.2.value := by
  obtain ⟨block, isBlock, isPlain⟩ := List.mem_flatMap.1 member
  exact allowed block isBlock assignment (Block.mem_assignments_of_mem_plainAssignments isPlain)

/-- The plain assignments of shaped blocks may be bound together exactly when no two blocks go to
one parameter of a single value, as such a block has one argument.
-/
theorem pairwise_plainAssignments_iff {schema : Schema} {blocks : List Block}
    (declared : ∀ block ∈ blocks, block.param ∈ schema.params)
    (shaped : ∀ block ∈ blocks, block.Shaped)
    : (plainAssignments blocks).Pairwise Assignment.Apart ↔ blocks.Pairwise Block.Apart := by
  have inner : ∀ block ∈ blocks, block.plainAssignments.Pairwise Assignment.Apart := by
    intro block member
    have isShaped := shaped block member
    obtain ⟨param, first, following⟩ := block
    cases param with
    | repeating group => exact List.Pairwise.nil
    | simple param =>
        refine List.pairwise_map.2 (List.pairwise_cons.2 ⟨?_, ?_⟩)
        · intro argument isFollowing _
          exact (isShaped argument isFollowing).1
        · refine List.pairwise_of_forall_mem_list ?_
          intro argument isFollowing _ _ _
          exact (isShaped argument isFollowing).1
  have outer : ∀ earlier ∈ blocks,
      ∀ later ∈ blocks,
        (∀ x ∈ earlier.plainAssignments, ∀ y ∈ later.plainAssignments, x.Apart y)
          ↔ earlier.Apart later := by
    intro earlier isEarlier later isLater
    have earlierDeclared := declared earlier isEarlier
    have laterDeclared := declared later isLater
    obtain ⟨param, first, following⟩ := earlier
    obtain ⟨other, otherFirst, otherFollowing⟩ := later
    cases param with
    | repeating group => simp [Block.plainAssignments, Block.Apart]
    | simple param =>
        cases other with
        | repeating group => simp [Block.plainAssignments, Block.Apart]
        | simple other =>
            constructor
            · intro apart single isSingle isOther
              cases isSingle
              cases isOther
              exact apart (param, first) (List.mem_map_of_mem (by simp [Block.arguments]))
                (param, otherFirst) (List.mem_map_of_mem (by simp [Block.arguments])) rfl
            · intro apart x isX y isY same
              obtain ⟨_, -, rfl⟩ := List.mem_map.1 isX
              obtain ⟨_, -, rfl⟩ := List.mem_map.1 isY
              exact apart param rfl (Schema.eq_of_key laterDeclared earlierDeclared same.symm)
  unfold plainAssignments
  rw [List.pairwise_flatMap]
  constructor
  · intro h
    exact (List.Pairwise.iff_of_mem fun {a b} ha hb => outer a ha b hb).1 h.2
  · intro apart
    exact ⟨inner, (List.Pairwise.iff_of_mem fun {a b} ha hb => outer a ha b hb).2 apart⟩

/-- Blocks that belong to a schema are bound exactly when they can be, and the progress is what is
in them.
-/
theorem bindBlocks_start_eq_ok_iff {schema : Schema} {blocks : List Block} {last : Progress}
    (declared : ∀ block ∈ blocks, block.param ∈ schema.params)
    (shaped : ∀ block ∈ blocks, block.Shaped)
    : bindBlocks blocks .start = .ok last ↔ Bindable blocks ∧ last = progressOf blocks := by
  have coherent : ∀ x ∈ plainAssignments blocks,
      ∀ y ∈ plainAssignments blocks, x.1.key = y.1.key → x.1 = y.1 := by
    intro x isX y isY
    exact eq_of_mem_plainAssignments declared
      (mem_params_of_mem_plainAssignments declared isY) isX
  simp only [bindBlocks_eq_ok_iff shaped, bindAssigned_eq_ok_iff coherent,
    pairwise_plainAssignments_iff declared shaped]
  constructor
  · intro h
    obtain ⟨bindings, repetitions⟩ := last
    rcases h with ⟨⟨allowed, once, -, rfl⟩, sound, rfl⟩
    refine ⟨⟨?_, once, ?_⟩, rfl⟩
    · intro block member
      obtain ⟨param, first, following⟩ := block
      cases param with
      | simple param =>
          exact fun x isX => allowed x (List.mem_flatMap.2 ⟨_, member, isX⟩)
      | repeating group => exact (sound _ member group rfl).1
    · intro block member
      obtain ⟨param, first, following⟩ := block
      cases param with
      | simple param => trivial
      | repeating group => exact (sound _ member group rfl).2
  · intro h
    rcases h with ⟨⟨allowed, once, filled⟩, rfl⟩
    refine ⟨⟨?_, once, ?_, rfl⟩, ?_, rfl⟩
    · exact fun x => allows_of_mem_plainAssignments allowed
    · simp [Progress.start, boundValues]
    · intro block member group isGroup
      exact ⟨allowed block member, filled block member⟩

/-- Blocks that belong to a schema can be bound, with nothing missing in the end, exactly when the
schema admits them.
-/
theorem bindBlocks_and_complete_eq_ok_iff {schema : Schema} {replacer : Replacer}
    {blocks : List Block} {bound : Bound}
    (declared : ∀ block ∈ blocks, block.param ∈ schema.params)
    (shaped : ∀ block ∈ blocks, block.Shaped)
    : (∃ last,
        bindBlocks blocks .start = .ok last ∧ complete schema replacer last = .ok bound)
      ↔ schema.Admits blocks ∧ bound = schema.completed replacer (progressOf blocks) := by
  simp only [bindBlocks_start_eq_ok_iff declared shaped, complete_eq_ok_iff, Schema.admits_iff]
  constructor
  · intro h
    rcases h with ⟨_, ⟨bindable, rfl⟩, supplied, rfl⟩
    simp only [progressOf, boundValues_bindingsOf] at supplied
    exact ⟨⟨bindable, supplied⟩, rfl⟩
  · intro h
    rcases h with ⟨⟨bindable, supplied⟩, rfl⟩
    refine ⟨_, ⟨bindable, rfl⟩, ?_, rfl⟩
    simpa only [progressOf, boundValues_bindingsOf] using supplied

end ArgBinding
