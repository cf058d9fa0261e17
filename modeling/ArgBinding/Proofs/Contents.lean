import ArgBinding.Proofs.Admission

/-! What parameters have after some blocks. The blocks of a parameter tell its values or its
repetitions in their order, whatever other blocks stand between them, and a parameter without blocks
has its default or nothing.
-/

namespace ArgBinding

open ArgBinding.Text

/-- What a parameter has after some blocks: for a plain one the values of its blocks in order or its
default, for a group the values in each of its blocks.
-/
def contentsIn (blocks : List Block) : Param → Contents
  | .simple param =>
      .plain (param.orDefault (assignedValues param.key (plainAssignments blocks)))
  | .repeating group =>
      .repeated
        ((blocks.filter fun block => block.param = .repeating group).map fun block =>
          group.params.map fun member =>
            (member.name, member.orDefault (assignedValues member.key block.assignments)))

theorem Block.at_table {block : Block} {group : Group} {member : Simple}
    (isMember : member ∈ group.params)
    : (block.table group).at member.key
      = member.orDefault (assignedValues member.key block.assignments) := by
  unfold table Table.at
  rw [lookup_map_key
    (fun member : Simple => member.orDefault (assignedValues member.key block.assignments))
    group.params_keys_nodup isMember]
  rfl

/-- The repetitions of a group are those that its blocks make, by induction on the blocks. -/
theorem repetitionsOf_filterMap {schema : Schema} {blocks : List Block} {group : Group}
    (replacer : Replacer) (declared : ∀ block ∈ blocks, block.param ∈ schema.params)
    (isDeclared : .repeating group ∈ schema.params)
    : repetitionsOf replacer (blocks.filterMap Block.repetition?) group
      = (blocks.filter fun block => block.param = .repeating group).map fun block =>
          { group := group, values := block.table group, replacer := replacer } := by
  induction blocks with
  | nil => rfl
  | cons block rest ih =>
      obtain ⟨blockDeclared, restDeclared⟩ := List.forall_mem_cons.1 declared
      have ih := ih restDeclared
      obtain ⟨param, first, following⟩ := block
      unfold repetitionsOf at ih ⊢
      cases param with
      | simple param =>
          simpa [List.filterMap_cons, Block.repetition?] using ih
      | repeating other =>
          by_cases same : other = group
          · subst same
            simp [Block.repetition?, ih]
          · have otherKey : other.key ≠ group.key := by
              intro sameKey
              exact same (Param.repeating.inj (Schema.eq_of_key blockDeclared isDeclared sameKey))
            simp [Block.repetition?, same, otherKey, ih]

/-- A completed run of blocks holds one repetition of a group for each of its blocks. -/
theorem repetitionsAt_completed_progressOf {schema : Schema} {replacer : Replacer}
    {blocks : List Block} {group : Group}
    (declared : ∀ block ∈ blocks, block.param ∈ schema.params)
    (isDeclared : .repeating group ∈ schema.params)
    : (schema.completed replacer (progressOf blocks)).repetitionsAt group.key
      = (blocks.filter fun block => block.param = .repeating group).map fun block =>
          { group := group, values := block.table group, replacer := replacer } := by
  rw [Schema.repetitionsAt_completed isDeclared]
  exact repetitionsOf_filterMap replacer declared isDeclared

theorem mem_repetitionsAt_completed {schema : Schema} {replacer : Replacer} {blocks : List Block}
    {group : Group} {repetition : Repetition}
    (declared : ∀ block ∈ blocks, block.param ∈ schema.params)
    (isDeclared : .repeating group ∈ schema.params)
    : repetition ∈ (schema.completed replacer (progressOf blocks)).repetitionsAt group.key
      ↔ ∃ block ∈ blocks,
          block.param = .repeating group
          ∧ repetition
            = { group := group, values := block.table group, replacer := replacer } := by
  simp only [repetitionsAt_completed_progressOf declared isDeclared, List.mem_map, List.mem_filter,
    decide_eq_true_eq, and_assoc, @eq_comm _ _ repetition]

/-- A completed run of blocks holds what is in them. -/
theorem contentsOf_completed {schema : Schema} {replacer : Replacer} {blocks : List Block}
    {param : Param} (declared : ∀ block ∈ blocks, block.param ∈ schema.params)
    (isDeclared : param ∈ schema.params)
    : (schema.completed replacer (progressOf blocks)).contentsOf param
      = contentsIn blocks param := by
  cases param with
  | simple param =>
      rw [Bound.contentsOf, Schema.values_at_completed isDeclared, contentsIn]
      simp only [progressOf, boundValues_bindingsOf]
  | repeating group =>
      rw [Bound.contentsOf, repetitionsAt_completed_progressOf declared isDeclared, contentsIn,
        List.map_map]
      congr 1
      refine List.map_congr_left ?_
      intro block _
      simp only [Function.comp_apply, Repetition.contents]
      refine List.map_congr_left ?_
      intro member isMember
      rw [Block.at_table isMember]

/-- What a parameter has when no argument went to it. -/
def Param.untouched : Param → Contents
  | .simple param => .plain param.default?.toList
  | .repeating _ => .repeated []

theorem assignedValues_plainAssignments_eq_nil {blocks : List Block} {key : String}
    (unowned : ∀ block ∈ blocks, block.param.key ≠ key)
    : assignedValues key (plainAssignments blocks) = [] := by
  refine List.flatMap_eq_nil_iff.2 ?_
  intro assignment member
  obtain ⟨block, isBlock, isAssigned⟩ := List.mem_flatMap.1 member
  have other := unowned block isBlock
  obtain ⟨param, first, following⟩ := block
  cases param with
  | repeating group => simp [Block.plainAssignments] at isAssigned
  | simple param =>
      obtain ⟨argument, -, rfl⟩ := List.mem_map.1 isAssigned
      exact if_neg other

theorem contentsIn_eq_untouched {blocks : List Block} {param : Param}
    (unowned : ∀ block ∈ blocks, block.param.key ≠ param.key)
    : contentsIn blocks param = param.untouched := by
  cases param with
  | simple param =>
      have none : assignedValues param.key (plainAssignments blocks) = [] :=
        assignedValues_plainAssignments_eq_nil unowned
      rw [contentsIn, none]
      rfl
  | repeating group =>
      have none : blocks.filter (fun block => block.param = .repeating group) = [] := by
        rw [List.filter_eq_nil_iff]
        intro block member same
        exact unowned block member (congrArg Param.key (of_decide_eq_true same))
      rw [contentsIn, none]
      rfl

/-- A plain parameter has its values from its own blocks, by induction on the blocks. -/
theorem assignedValues_filter {schema : Schema} {blocks : List Block} {param : Simple}
    (declared : ∀ block ∈ blocks, block.param ∈ schema.params)
    (isDeclared : .simple param ∈ schema.params)
    : assignedValues param.key
        (plainAssignments (blocks.filter fun block => block.param = .simple param))
      = assignedValues param.key (plainAssignments blocks) := by
  induction blocks with
  | nil => rfl
  | cons block rest ih =>
      obtain ⟨blockDeclared, restDeclared⟩ := List.forall_mem_cons.1 declared
      have split : plainAssignments (block :: rest)
          = plainAssignments [block] ++ plainAssignments rest := by
        simp [plainAssignments]
      by_cases own : block.param = .simple param
      · have splitOwn : plainAssignments
              (block :: rest.filter fun block => block.param = .simple param)
            = plainAssignments [block]
              ++ plainAssignments (rest.filter fun block => block.param = .simple param) := by
          simp [plainAssignments]
        rw [List.filter_cons_of_pos (by simpa using own), splitOwn, split, assignedValues_append,
          assignedValues_append, ih restDeclared]
      · have otherKey : ∀ other ∈ [block], other.param.key ≠ param.key := by
          intro other member same
          obtain rfl := List.mem_singleton.1 member
          exact own (Schema.eq_of_key blockDeclared isDeclared same)
        rw [List.filter_cons_of_neg (by simpa using own), split, assignedValues_append,
          assignedValues_plainAssignments_eq_nil otherKey, List.nil_append, ih restDeclared]

/-- What a parameter has after some blocks comes from its own ones. -/
theorem contentsIn_filter {schema : Schema} {blocks : List Block} {param : Param}
    (declared : ∀ block ∈ blocks, block.param ∈ schema.params)
    (isDeclared : param ∈ schema.params)
    : contentsIn (blocks.filter fun block => block.param = param) param
      = contentsIn blocks param := by
  cases param with
  | simple param => rw [contentsIn, contentsIn, assignedValues_filter declared isDeclared]
  | repeating group => simp only [contentsIn, List.filter_filter, Bool.and_self]

end ArgBinding
