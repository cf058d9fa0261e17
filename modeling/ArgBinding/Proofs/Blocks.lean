import ArgBinding.Binding.Progress
import ArgBinding.Proofs.Values

/-! Arguments are bound in blocks, each of which goes to one parameter. A block is described by what
stands in it and by the argument behind it, before which it has to stop; what binding takes from the
front of the arguments is the one block that meets both.
-/

namespace ArgBinding

open ArgBinding.Text

/-- Both arguments may stand in one repetition: what they both name takes several values. -/
def Group.Apart (group : Group) (earlier later : Argument) : Prop :=
  ∀ member ∈ group.params,
    earlier.Names member.key → later.Names member.key → member.allowMultiple = true

instance (group : Group) (earlier later : Argument) : Decidable (group.Apart earlier later) :=
  inferInstanceAs (Decidable (∀ member ∈ group.params, _))

/-- An argument with the parameter of the group that it names. -/
def Group.assignment? (group : Group) (argument : Argument) : Option Assignment :=
  (group.find? argument.name).map (·, argument)

/-- Arguments that stand one behind the other and are bound to one parameter. -/
structure Block where
  param : Param
  first : Argument
  following : List Argument

namespace Block

/-- The arguments of the block. -/
def arguments (block : Block) : List Argument :=
  block.first :: block.following

/-- The arguments of the block with the plain parameters to which they are bound. -/
def assignments (block : Block) : List Assignment :=
  match block.param with
  | .simple param => block.arguments.map (param, ·)
  | .repeating group => block.arguments.filterMap group.assignment?

/-- What may follow the first argument. Only a parameter of several values takes more arguments, and
these fit its key. In a group the others name members, and none of a single value twice.
-/
def Shaped (block : Block) : Prop :=
  match block.param with
  | .simple param =>
      ∀ argument ∈ block.following, param.allowMultiple = true ∧ argument.Fits param.key
  | .repeating group =>
      (∀ argument ∈ block.following, ∃ member ∈ group.members, argument.Names member.key)
      ∧ block.arguments.Pairwise group.Apart

/-- The block cannot go on with an argument. A repetition ends before a named argument that means
nothing in the group, or a parameter of a single value that was named before.
-/
def StopsBefore (block : Block) (next : Argument) : Prop :=
  match block.param with
  | .simple param => param.allowMultiple = true → ¬ next.Fits param.key
  | .repeating group =>
      next.name ≠ none
      ∧ ∀ member ∈ group.params,
          next.Names member.key
          → member.allowMultiple = false
            ∧ ∃ argument ∈ block.arguments, argument.Names member.key

/-- The block is what is taken from the front of its arguments with others behind them. -/
def CutBefore (block : Block) (behind : List Argument) : Prop :=
  block.Shaped ∧ ∀ next ∈ behind.head?, block.StopsBefore next

instance : (block : Block) → Decidable block.Shaped
  | ⟨.simple param, _, following⟩ =>
      inferInstanceAs (Decidable
        (∀ argument ∈ following, param.allowMultiple = true ∧ argument.Fits param.key))
  | ⟨.repeating group, first, following⟩ =>
      inferInstanceAs (Decidable
        ((∀ argument ∈ following, ∃ member ∈ group.members, argument.Names member.key)
          ∧ (first :: following).Pairwise group.Apart))

instance : (block : Block) → (next : Argument) → Decidable (block.StopsBefore next)
  | ⟨.simple param, _, _⟩, next =>
      inferInstanceAs (Decidable (param.allowMultiple = true → ¬ next.Fits param.key))
  | ⟨.repeating group, first, following⟩, next =>
      inferInstanceAs (Decidable
        (next.name ≠ none
          ∧ ∀ member ∈ group.params,
              next.Names member.key
              → member.allowMultiple = false
                ∧ ∃ argument ∈ first :: following, argument.Names member.key))

instance (block : Block) (behind : List Argument) : Decidable (block.CutBefore behind) :=
  inferInstanceAs (Decidable (_ ∧ ∀ next ∈ behind.head?, block.StopsBefore next))

/-- The progress after the arguments of a block are bound as well. -/
def bindTo (block : Block) (progress : Progress) : Except BindingError Progress :=
  match block.param with
  | .simple _ =>
      (bindAssigned block.assignments progress.bindings).map fun bindings =>
        { progress with bindings := bindings }
  | .repeating group => do
      let bindings ← bindAssigned block.assignments []
      let table ← settleAll (.ofMissingMember group.name) bindings group.params
      .ok { progress with repetitions := progress.repetitions ++ [(group, table)] }

/-- Arguments of one plain parameter are bound together as they are in two blocks. -/
theorem bindTo_simple_append {param : Simple} {first next : Argument}
    {following more : List Argument} (progress : Progress)
    : (Block.mk (.simple param) first (following ++ next :: more)).bindTo progress
      = ((Block.mk (.simple param) first following).bindTo progress
          >>= (Block.mk (.simple param) next more).bindTo) := by
  simp only [bindTo, assignments, arguments, ← List.cons_append, List.map_append,
    bindAssigned_append]
  cases bindAssigned ((first :: following).map (param, ·)) progress.bindings <;> rfl

end Block

/-- The block starts with an argument that names its parameter, which the schema declares. -/
def Schema.Owns (schema : Schema) (block : Block) : Prop :=
  block.param ∈ schema.params ∧ block.first.Names block.param.key

instance (schema : Schema) (block : Block) : Decidable (schema.Owns block) :=
  inferInstanceAs (Decidable (_ ∧ _))

/-- All arguments of a repetition are named. -/
theorem Block.named_of_repeating {block : Block} {group : Group} (shaped : block.Shaped)
    (isGroup : block.param = .repeating group) (names : block.first.Names block.param.key)
    : ∀ argument ∈ block.arguments, argument.name ≠ none := by
  obtain ⟨param, first, following⟩ := block
  cases isGroup
  refine List.forall_mem_cons.2 ⟨names.name_ne_none, ?_⟩
  intro argument isFollowing
  obtain ⟨member, -, namesMember⟩ := shaped.1 argument isFollowing
  exact namesMember.name_ne_none

-----------------------------------------------------------------------------------------
-- What goes on with a first argument
-----------------------------------------------------------------------------------------

/-- A plain parameter goes on with the arguments that fit it up to the first that does not, and only
where it takes several values.
-/
theorem Simple.continuation_eq_iff {param : Simple} {following behind : List Argument}
    : param.continuation (following ++ behind) = following
      ↔ (∀ argument ∈ following, param.allowMultiple = true ∧ argument.Fits param.key)
        ∧ ∀ next ∈ behind.head?, param.allowMultiple = true → ¬ next.Fits param.key := by
  unfold continuation
  cases several : param.allowMultiple with
  | false =>
      simp only [Bool.false_eq_true, if_false, false_and, imp_false, false_implies, implies_true,
        and_true]
      rw [eq_comm, List.eq_nil_iff_forall_not_mem]
  | true =>
      simp only [if_true, true_and, true_implies, ← param.takes_iff_fits]
      constructor
      · intro whole
        have fits : ∀ argument ∈ following, param.takes argument = true := by
          rw [← whole]
          exact List.all_eq_true.1 List.all_takeWhile
        refine ⟨fits, ?_⟩
        intro next isNext takes
        obtain ⟨rest, rfl⟩ : ∃ rest, behind = next :: rest :=
          ⟨behind.tail, (List.cons_head?_tail isNext).symm⟩
        rw [List.takeWhile_append_of_pos fits, List.takeWhile_cons_of_pos takes] at whole
        simp at whole
      · intro h
        rcases h with ⟨fits, stops⟩
        rw [List.takeWhile_append_of_pos fits]
        cases behind with
        | nil => simp
        | cons next rest => rw [List.takeWhile_cons_of_neg (stops next (by simp)), List.append_nil]

namespace Group

/-- The arguments that go on with a repetition tell the parameters to which they go, by induction on
the arguments.
-/
theorem filterMap_assignment?_continuationFrom (group : Group) (bound : List String)
    (arguments : List Argument)
    : ((group.continuationFrom bound arguments).map Prod.snd).filterMap group.assignment?
      = group.continuationFrom bound arguments := by
  induction arguments generalizing bound with
  | nil => rfl
  | cons argument rest ih =>
      unfold continuationFrom
      split
      · rfl
      · rename_i param found
        split
        · rfl
        · simp [assignment?, found, ih]

/-- The argument names a parameter of the group that takes several values or is not bound. -/
def HasRoom (group : Group) (bound : List String) (argument : Argument) : Prop :=
  ∃ member ∈ group.params,
    argument.Names member.key ∧ (member.allowMultiple = true ∨ member.key ∉ bound)

section Continuation

variable {group : Group} {bound : List String} {argument next : Argument} {rest : List Argument}
  {member : Simple}

theorem continuationFrom_cons_of_room (isMember : member ∈ group.params)
    (names : argument.Names member.key)
    (room : member.allowMultiple = true ∨ member.key ∉ bound)
    : group.continuationFrom bound (argument :: rest)
      = (member, argument) :: group.continuationFrom (member.key :: bound) rest := by
  have found : group.find? argument.name = some member := find?_eq_some_iff.2 ⟨isMember, names⟩
  have goesOn : ¬ (!member.allowMultiple && bound.contains member.key) = true := by
    simpa [or_iff_not_imp_left] using room
  simp only [continuationFrom, found, if_neg goesOn]

theorem continuationFrom_cons_of_full (full : ¬ group.HasRoom bound argument)
    : group.continuationFrom bound (argument :: rest) = [] := by
  rw [continuationFrom]
  cases found : group.find? argument.name with
  | none => rfl
  | some member =>
      obtain ⟨isMember, names⟩ := find?_eq_some_iff.1 found
      have stops : (!member.allowMultiple && bound.contains member.key) = true := by
        by_contra goesOn
        exact full ⟨member, isMember, names, by simpa [or_iff_not_imp_left] using goesOn⟩
      exact if_pos stops

/-- When the key that an argument names is bound as well, there is room for what may stand in one
repetition with that argument.
-/
theorem hasRoom_cons_iff (names : argument.Names member.key)
    : group.HasRoom (member.key :: bound) next
      ↔ group.HasRoom bound next ∧ group.Apart argument next := by
  constructor
  · intro h
    rcases h with ⟨taken, isTaken, nextNames, room⟩
    refine ⟨⟨taken, isTaken, nextNames, room.imp_right fun free known =>
      free (List.mem_cons_of_mem _ known)⟩, ?_⟩
    intro other isOther same same'
    obtain rfl := eq_of_key isOther isTaken (same'.unique nextNames)
    exact room.resolve_right fun free => free (by simp [same.unique names])
  · intro h
    rcases h with ⟨⟨taken, isTaken, nextNames, room⟩, apart⟩
    refine ⟨taken, isTaken, nextNames, ?_⟩
    by_cases same : taken.key = member.key
    · exact Or.inl (apart taken isTaken (same ▸ names) nextNames)
    · exact room.imp_right fun free known => (List.mem_cons.1 known).elim same free

/-- There is no room behind arguments exactly for what names a parameter of a single value that they
name.
-/
theorem not_hasRoom_iff {arguments : List Argument}
    : ¬ (group.HasRoom [] next ∧ ∀ argument ∈ arguments, group.Apart argument next)
      ↔ ∀ member ∈ group.params,
          next.Names member.key
          → member.allowMultiple = false
            ∧ ∃ argument ∈ arguments, argument.Names member.key := by
  constructor
  · intro full member isMember names
    have room : group.HasRoom [] next := ⟨member, isMember, names, Or.inr List.not_mem_nil⟩
    have notApart : ¬ ∀ argument ∈ arguments, group.Apart argument next :=
      fun apart => full ⟨room, apart⟩
    simp only [Apart, not_forall] at notApart
    obtain ⟨argument, isArgument, taken, isTaken, argumentNames, nextNames, single⟩ := notApart
    obtain rfl := eq_of_key isTaken isMember (nextNames.unique names)
    exact ⟨Bool.eq_false_iff.2 single, argument, isArgument, argumentNames⟩
  · intro taken h
    rcases h with ⟨⟨member, isMember, names, _⟩, apart⟩
    obtain ⟨single, argument, isArgument, argumentNames⟩ := taken member isMember names
    have several := apart argument isArgument member isMember argumentNames names
    exact Bool.false_ne_true (single.symm.trans several)

end Continuation

/-- A repetition in which some keys are bound goes on with arguments that may stand in it together,
up to the first for which there is no room. Induction on the arguments: each puts its key to the
bound ones.
-/
theorem map_continuationFrom_eq_iff {group : Group} {bound : List String}
    {following behind : List Argument}
    : (group.continuationFrom bound (following ++ behind)).map Prod.snd = following
      ↔ (∀ argument ∈ following, group.HasRoom bound argument)
        ∧ following.Pairwise group.Apart
        ∧ ∀ next ∈ behind.head?,
            ¬ (group.HasRoom bound next ∧ ∀ argument ∈ following, group.Apart argument next) := by
  induction following generalizing bound with
  | nil =>
      cases behind with
      | nil => simp [continuationFrom]
      | cons next rest =>
          by_cases room : group.HasRoom bound next
          · have taken := room
            obtain ⟨member, isMember, names, free⟩ := taken
            simp [continuationFrom_cons_of_room isMember names free, room]
          · simp [continuationFrom_cons_of_full room, room]
  | cons argument rest ih =>
      rw [List.cons_append]
      by_cases room : group.HasRoom bound argument
      · have taken := room
        obtain ⟨member, isMember, names, free⟩ := taken
        rw [continuationFrom_cons_of_room isMember names free]
        simp only [List.map_cons, List.cons.injEq, true_and, ih, hasRoom_cons_iff names,
          List.forall_mem_cons, List.pairwise_cons, room, forall_and, and_assoc]
      · simp [continuationFrom_cons_of_full room, room]

theorem key_ne_identity {group : Group} {member : Simple} (isMember : member ∈ group.members)
    : member.key ≠ group.identity.key := by
  intro same
  exact (List.nodup_cons.1 group.keys_nodup).1 (same ▸ List.mem_map_of_mem isMember)

/-- The argument that names the identity may stand before one that names another member. -/
theorem identity_apart {group : Group} {first argument : Argument}
    (identity : first.Names group.key)
    (named : ∃ member ∈ group.members, argument.Names member.key)
    : group.Apart first argument := by
  intro member _ isIdentity same
  obtain ⟨taken, isTaken, names⟩ := named
  have key : taken.key = group.identity.key :=
    (names.unique same).trans (isIdentity.unique identity)
  exact absurd key (key_ne_identity isTaken)

/-- The first arguments of a repetition are those of a block exactly when they go on with it and a
named argument follows; the identity is bound already and takes a single value.
-/
theorem cutBefore_iff {group : Group} {first : Argument} {following behind : List Argument}
    (identity : first.Names group.key)
    : Block.CutBefore ⟨.repeating group, first, following⟩ behind
      ↔ (group.continuation (following ++ behind)).map Prod.snd = following
        ∧ ∀ next ∈ behind.head?, next.name ≠ none := by
  have isIdentity : group.identity ∈ group.params := by simp [params]
  unfold continuation Block.CutBefore Block.Shaped Block.StopsBefore Block.arguments
  simp only [map_continuationFrom_eq_iff, ← not_hasRoom_iff, hasRoom_cons_iff identity,
    List.pairwise_cons, List.forall_mem_cons, and_assoc]
  constructor
  · intro h
    rcases h with ⟨named, first_apart, apart, stops⟩
    refine ⟨?_, apart, fun next isNext => (stops next isNext).2,
      fun next isNext => (stops next isNext).1⟩
    intro argument isArgument
    obtain ⟨member, isMember, names⟩ := named argument isArgument
    exact ⟨⟨member, List.mem_cons_of_mem _ isMember, names, Or.inr List.not_mem_nil⟩,
      first_apart argument isArgument⟩
  · intro h
    rcases h with ⟨room, apart, stops, positional⟩
    refine ⟨?_, fun argument isArgument => (room argument isArgument).2, apart,
      fun next isNext => ⟨positional next isNext, stops next isNext⟩⟩
    intro argument isArgument
    obtain ⟨⟨member, isMember, names, -⟩, first_apart⟩ := room argument isArgument
    rcases List.mem_cons.1 isMember with rfl | isMember
    · have several := first_apart group.identity isIdentity identity names
      exact absurd several (by simp [group.identity_single])
    · exact ⟨member, isMember, names⟩

end Group

end ArgBinding
