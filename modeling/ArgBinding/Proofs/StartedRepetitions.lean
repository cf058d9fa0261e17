import ArgBinding.Proofs.Grammar

/-! The arguments that start repetitions. An argument that names a group starts a repetition of it,
unless it stands in a repetition of another group that has a member of that name. Where no group has
such a member, the repetitions are those that the arguments with the name of the group start.
-/

namespace ArgBinding

open ArgBinding.Text

/-- The argument starts the repetition: it is one of the group, and its identity has the value of
the argument in the spelling under which it is taken.
-/
structure Group.Starts (group : Group) (argument : Argument) (repetition : Repetition)
    : Prop where
  own : repetition.group = group
  identity
    : ∃ value,
        group.identity.choices.select? argument.value = some value
        ∧ repetition.contents.lookup group.name = some [value]

/-- The block is a repetition of a group that has a member under the key. -/
def Block.Captures (block : Block) (key : String) : Prop :=
  match block.param with
  | .simple _ => False
  | .repeating group => ∃ member ∈ group.members, member.key = key

instance : (block : Block) → (key : String) → Decidable (block.Captures key)
  | ⟨.simple _, _, _⟩, _ => inferInstanceAs (Decidable False)
  | ⟨.repeating group, _, _⟩, key =>
      inferInstanceAs (Decidable (∃ member ∈ group.members, member.key = key))

/-- The arguments that name a key and do not stand in a repetition that captures it. -/
def startersOf (blocks : List Block) (key : String) : List Argument :=
  ((blocks.filter fun block => ¬ block.Captures key).flatMap Block.arguments).filter
    fun argument => argument.Names key

-----------------------------------------------------------------------------------------
-- One block
-----------------------------------------------------------------------------------------

section Block

variable {block : Block} {group : Group}

theorem Block.not_captures_own (isGroup : block.param = .repeating group)
    : ¬ block.Captures group.key := by
  unfold Captures
  rw [isGroup]
  intro captured
  obtain ⟨member, isMember, same⟩ := captured
  exact Group.key_ne_identity isMember same

/-- Only the first argument of a repetition brings a value to its identity. -/
theorem Block.assignedValues_identity (shaped : block.Shaped)
    (isGroup : block.param = .repeating group) (names : block.first.Names group.key)
    : assignedValues group.key block.assignments
      = group.identity.valuesFrom block.first.value := by
  obtain ⟨_, first, following⟩ := block
  cases isGroup
  have found : group.find? first.name = some group.identity :=
    Group.find?_eq_some_iff.2 ⟨by simp [Group.params], names⟩
  have none : assignedValues group.key (following.filterMap group.assignment?) = [] := by
    refine List.eq_nil_iff_forall_not_mem.2 ?_
    intro value isValue
    obtain ⟨x, isAssigned, same, -⟩ := mem_assignedValues.1 isValue
    obtain ⟨argument, isFollowing, isAssignment⟩ := List.mem_filterMap.1 isAssigned
    obtain ⟨-, namesTaken, -⟩ := Group.assignment?_eq_some_iff.1 isAssignment
    obtain ⟨member, isMember, namesMember⟩ := shaped.1 argument isFollowing
    exact Group.key_ne_identity isMember ((namesMember.unique namesTaken).trans same)
  simp only [assignments, arguments, List.filterMap_cons, Group.assignment?, found,
    Option.map_some, assignedValues_cons]
  exact (congrArg₂ (· ++ ·) (if_pos rfl) none).trans (List.append_nil _)

/-- The first argument of a block starts the repetition that the block makes. -/
theorem Block.starts (replacer : Replacer) (allowed : block.Allowed) (shaped : block.Shaped)
    (isGroup : block.param = .repeating group) (names : block.first.Names group.key)
    : group.Starts block.first
        { group := group, values := block.table group, replacer := replacer } := by
  have isIdentity : group.identity ∈ group.params := by simp [Group.params]
  have isAssigned : (group.identity, block.first) ∈ block.assignments := by
    unfold assignments
    rw [isGroup]
    exact List.mem_filterMap.2 ⟨block.first, by simp [arguments],
      Group.assignment?_eq_some_iff.2 ⟨isIdentity, names, rfl⟩⟩
  obtain ⟨value, selected, only⟩ :=
    Simple.exists_selected_eq group.identity_single (allowed _ isAssigned)
  have values : (block.table group).at group.identity.key = [value] := by
    rw [Block.at_table isIdentity]
    exact (congrArg _ (Block.assignedValues_identity shaped isGroup names)).trans
      (by simp [only, Simple.orDefault])
  exact ⟨rfl, value, selected, values ▸ Repetition.lookup_contents isIdentity⟩

end Block

-----------------------------------------------------------------------------------------
-- Cuts into blocks
-----------------------------------------------------------------------------------------

section Cut

variable {schema : Schema} {arguments : List Argument} {leading named : List Block}
  {group : Group}

/-- Of the arguments of a block only the first of a repetition names its group, unless the block
captures the key.
-/
theorem Schema.Cut.filter_names {block : Block} (cut : schema.Cut arguments leading named)
    (member : block ∈ leading ++ named) (isDeclared : .repeating group ∈ schema.params)
    (free : ¬ block.Captures group.key)
    : (block.arguments.filter fun argument => argument.Names group.key)
      = if block.param = .repeating group then [block.first] else [] := by
  have declared := cut.declared block member
  have shaped := cut.shaped block member
  cases isParam : block.param with
  | simple param =>
      have fits := cut.fits member isParam
      rw [if_neg (by simp), List.filter_eq_nil_iff]
      intro argument isArgument names
      have names : argument.Names group.key := of_decide_eq_true names
      have same : (Param.simple param).key = (Param.repeating group).key :=
        ((fits argument isArgument).resolve_left names.name_ne_none).unique names
      cases Schema.eq_of_key (isParam ▸ declared) isDeclared same
  | repeating other =>
      have start := cut.names_of_repeating member isParam
      have none : (block.following.filter fun argument => argument.Names group.key) = [] := by
        rw [List.filter_eq_nil_iff]
        intro argument isFollowing names
        obtain ⟨_, first, following⟩ := block
        cases isParam
        obtain ⟨taken, isTaken, namesTaken⟩ := shaped.1 argument isFollowing
        exact free ⟨taken, isTaken, namesTaken.unique (of_decide_eq_true names)⟩
      rw [Block.arguments, List.filter_cons, none]
      by_cases own : other = group
      · subst own
        rw [if_pos (by simpa using start), if_pos rfl]
      · have otherName : ¬ block.first.Names group.key := by
          intro names
          have same : (Param.repeating other).key = (Param.repeating group).key :=
            start.unique names
          exact own (Param.repeating.inj (Schema.eq_of_key (isParam ▸ declared) isDeclared same))
        rw [if_neg (by simpa using otherName), if_neg (by simpa using own)]

/-- The arguments that start repetitions are the first ones of the blocks of the group. -/
theorem Schema.Cut.startersOf_eq (cut : schema.Cut arguments leading named)
    (isDeclared : .repeating group ∈ schema.params)
    : startersOf (leading ++ named) group.key
      = ((leading ++ named).filter fun block => block.param = .repeating group).map
          Block.first := by
  have each := fun block (member : block ∈ leading ++ named) =>
    cut.filter_names member isDeclared
  unfold startersOf
  generalize leading ++ named = blocks at each
  induction blocks with
  | nil => rfl
  | cons block rest ih =>
      obtain ⟨eachFirst, eachRest⟩ := List.forall_mem_cons.1 each
      by_cases captured : block.Captures group.key
      · have other : ¬ block.param = .repeating group :=
          fun own => Block.not_captures_own own captured
        rw [List.filter_cons_of_neg (by simpa using captured),
          List.filter_cons_of_neg (by simpa using other)]
        exact ih eachRest
      · rw [List.filter_cons_of_pos (by simpa using captured), List.flatMap_cons,
          List.filter_append, eachFirst captured, ih eachRest]
        by_cases own : block.param = .repeating group <;> simp [own]

/-- Where no group has a member of the name, all arguments that name the group start repetitions. -/
theorem Schema.Cut.startersOf_of_apart (cut : schema.Cut arguments leading named)
    (apart
      : ∀ other,
          .repeating other ∈ schema.params → ∀ member ∈ other.members, member.key ≠ group.key)
    : startersOf (leading ++ named) group.key
      = arguments.filter fun argument => argument.Names group.key := by
  have free : ∀ block ∈ leading ++ named, ¬ block.Captures group.key := by
    intro block member captured
    have declared := cut.declared block member
    unfold Block.Captures at captured
    cases isParam : block.param with
    | simple param => simp [isParam] at captured
    | repeating other =>
        rw [isParam] at captured declared
        obtain ⟨taken, isTaken, same⟩ := captured
        exact apart other declared taken isTaken same
  have all : ((leading ++ named).filter fun block => ¬ block.Captures group.key)
      = leading ++ named :=
    List.filter_eq_self.2 fun block member => decide_eq_true (free block member)
  rw [startersOf, all, cut.whole]

end Cut

-----------------------------------------------------------------------------------------
-- Calls
-----------------------------------------------------------------------------------------

/-- The repetitions of a group after a call that succeeds on accepted declarations are those that
arguments with its name start, in the order of these; arguments in a repetition of another group
that has a member of the name are left out. So all arguments with the name start repetitions unless
a group has such a member. Witness: the blocks of the group.
-/
theorem bind_repetitions_started {entries : List Entry} {schema : Schema} {replacer : Replacer}
    {arguments : List (Option String)} {bound : Bound} {group : Group}
    (accepted : Schema.declare entries = .ok schema)
    (isBound : (bind entries replacer arguments).result = .ok bound)
    (isDeclared : .repeating group ∈ schema.params)
    : ∃ leading named repetitions,
        schema.Cut (Argument.ofTexts arguments) leading named
        ∧ bound = schema.completed replacer (progressOf (leading ++ named))
        ∧ (∀ name,
            lower name = group.key → bound.repetitions (some name) = .ok repetitions)
        ∧ List.Forall₂ group.Starts (startersOf (leading ++ named) group.key) repetitions
        ∧ ((∀ other,
              .repeating other ∈ schema.params
              → ∀ member ∈ other.members, member.key ≠ group.key)
          → List.Forall₂ group.Starts
              ((Argument.ofTexts arguments).filter fun argument => argument.Names group.key)
              repetitions) := by
  obtain ⟨-, leading, named, cut, admitted, rfl⟩ := (bind_result_eq_ok_iff_cut accepted).1 isBound
  have started : List.Forall₂ group.Starts (startersOf (leading ++ named) group.key)
      ((schema.completed replacer (progressOf (leading ++ named))).repetitionsAt group.key) := by
    rw [cut.startersOf_eq isDeclared,
      repetitionsAt_completed_progressOf cut.declared isDeclared, List.forall₂_map_left_iff,
      List.forall₂_map_right_iff]
    refine List.forall₂_same.2 ?_
    intro block isOwn
    obtain ⟨member, isGroup⟩ := List.mem_filter.1 isOwn
    have isGroup := of_decide_eq_true isGroup
    exact Block.starts replacer (admitted.allowed block member) (cut.shaped block member) isGroup
      (cut.names_of_repeating member isGroup)
  refine ⟨leading, named, _, cut, rfl, ?_, started, ?_⟩
  · exact fun name key => Schema.repetitions_completed isDeclared key
  · intro apart
    rwa [cut.startersOf_of_apart apart] at started

/-- The fills of a trade are those that the arguments for fills start, one for each. -/
theorem trade_fills_started
    : Schema.declare Trade.entries = .ok Trade.schema
      ∧ .repeating Trade.fills ∈ Trade.schema.params
      ∧ (∀ other,
          .repeating other ∈ Trade.schema.params
          → ∀ member ∈ other.members, member.key ≠ Trade.fills.key)
      ∧ ∃ bound repetitions,
          (bind Trade.entries id Trade.arguments).result = .ok bound
          ∧ bound.repetitions (some "FILL") = .ok repetitions
          ∧ List.Forall₂ Trade.fills.Starts
              [Argument.ofText "fill: 1", Argument.ofText "fill: 3"] repetitions := by
  have isDeclared : .repeating Trade.fills ∈ Trade.schema.params := by decide
  have apart : ∀ other,
      .repeating other ∈ Trade.schema.params
      → ∀ member ∈ other.members, member.key ≠ Trade.fills.key := by
    intro other declared
    obtain rfl : other = Trade.fills := by simpa [Trade.schema] using declared
    decide
  obtain ⟨bound, bound_ok⟩ := Trade.exists_bound
  obtain ⟨_, _, repetitions, -, -, read, -, started⟩ :=
    bind_repetitions_started Trade.declare_entries bound_ok isDeclared
  have naming : ((Argument.ofTexts Trade.arguments).filter fun argument =>
        argument.Names Trade.fills.key)
      = [Argument.ofText "fill: 1", Argument.ofText "fill: 3"] := by decide
  exact ⟨Trade.declare_entries, isDeclared, apart, bound, repetitions, bound_ok,
    read "FILL" (by decide), naming ▸ started apart⟩

namespace Trade

/-- A group that goes by the name of a member of the fills. -/
def prices : Group :=
  {
    identity := { price with presence := .required }
    members := []
    identity_required := by decide
    identity_single := by decide
    keys_nodup := by decide
  }

def priced : Schema :=
  {
    params := [.repeating fills, .repeating prices]
    keys_nodup := by decide
    required_first := by decide
  }

end Trade

/-- An argument that names a group starts no repetition of it where a fill takes the argument. -/
theorem price_captured_by_fill
    : Schema.declare (Trade.priced.params.map Entry.declared) = .ok Trade.priced
      ∧ .repeating Trade.prices ∈ Trade.priced.params
      ∧ ((Argument.ofTexts [some "fill: 1", some "price: 2"]).filter fun argument =>
            argument.Names Trade.prices.key)
        = [Argument.ofText "price: 2"]
      ∧ ∃ bound,
          (bind (Trade.priced.params.map Entry.declared) id
              [some "fill: 1", some "price: 2"]).result
            = .ok bound
          ∧ (bound.repetitionsAt Trade.prices.key).length = 0 := by
  refine ⟨Schema.declare_eq_ok_iff.2 rfl, by decide, by decide, ?_⟩
  have unstarted : (bind (Trade.priced.params.map Entry.declared) id
        [some "fill: 1", some "price: 2"]).result.toOption.map
          (fun bound => (bound.repetitionsAt Trade.prices.key).length)
      = some 0 := by
    decide +kernel
  exact exists_eq_ok_of_map_toOption unstarted

end ArgBinding
