import ArgBinding.Proofs.NamedBlocks
import ArgBinding.Proofs.WrittenValues

/-! Blocks of written values. The values of a plain parameter make one block each, and the values in
a repetition make one block together. A schema admits such blocks of several parameters behind one
another, and each parameter has from its own blocks what was written.
-/

namespace ArgBinding

open ArgBinding.Text

/-- One block for each value of a plain parameter. -/
def Simple.blocksFor (param : Simple) (values : List String) : List Block :=
  values.map fun value =>
    { param := .simple param, first := param.argument value, following := [] }

/-- The block of a repetition with these values, of which the identity has exactly one. -/
def Group.blockFor (group : Group) (values : Simple → List String) : Block :=
  {
    param := .repeating group
    first := group.identity.argument ((values group.identity).headD "")
    following := (written values group.members).map Prod.snd
  }

/-- Blocks of one parameter that can be bound and give it its contents. -/
structure Schema.Gives (schema : Schema) (param : Param) (contents : Contents)
    (blocks : List Block) : Prop where
  own : ∀ block ∈ blocks, block.param = param
  separate : ∀ block ∈ blocks, schema.Separate block
  allowed : ∀ block ∈ blocks, block.Allowed
  once : blocks.Pairwise Block.Apart
  filled : ∀ block ∈ blocks, block.Filled
  supplied
    : ∀ plain,
        param = .simple plain
        → plain.isRequired = true
        → assignedValues plain.key (plainAssignments blocks) ≠ []
  contents : contentsIn blocks param = contents

section Plain

variable {schema : Schema} {param : Simple} {values : List String}

theorem plainAssignments_blocksFor (param : Simple) (values : List String)
    : plainAssignments (param.blocksFor values)
      = values.map fun value => (param, param.argument value) := by
  rw [plainAssignments, Simple.blocksFor, List.flatMap_map]
  exact List.map_eq_flatMap.symm

/-- The blocks of the values of a plain parameter give it these values. -/
theorem Simple.gives_blocksFor (declared : .simple param ∈ schema.params)
    (copyable : param.Copyable) (returns : param.Returns values)
    : schema.Gives (.simple param) (.plain values) (param.blocksFor values) := by
  have own : assignedValues param.key (plainAssignments (param.blocksFor values)) = values := by
    rw [plainAssignments_blocksFor, copyable.assignedValues_map _ returns.kept, if_pos rfl]
  refine ⟨List.forall_mem_map.2 fun _ _ => rfl, List.forall_mem_map.2 ?_,
    List.forall_mem_map.2 ?_, ?_, List.forall_mem_map.2 fun _ _ => trivial, ?_, ?_⟩
  · intro value isValue
    have keeps := returns.kept value isValue
    exact ⟨⟨declared, copyable.argument_names keeps.whole.trimmed⟩, List.forall_mem_nil _,
      fun _ _ => rfl⟩
  · intro value isValue x isAssigned
    have keeps := returns.kept value isValue
    obtain rfl := List.mem_singleton.1 isAssigned
    rw [copyable.argument_value keeps.whole.trimmed]
    exact keeps.allows
  · rw [blocksFor, List.pairwise_map]
    refine returns.pairwise fun several _ _ => ?_
    intro other isOther _
    cases isOther
    exact several
  · intro plain same required
    cases same
    rw [own]
    exact returns.supplied required
  · rw [contentsIn, own, returns.settled]

end Plain

section Repeated

variable {schema : Schema} {group : Group} {values : Simple → List String}

theorem Group.arguments_blockFor (returns : group.identity.Returns (values group.identity))
    : (group.blockFor values).arguments = (written values group.params).map Prod.snd := by
  obtain ⟨value, only⟩ := returns.exists_eq group.identity_required group.identity_single
  simp [blockFor, Block.arguments, written, params, only]

/-- The written arguments of a group may stand in one repetition. -/
theorem Group.pairwise_written (copyable : ∀ member ∈ group.params, member.Copyable)
    (returns : ∀ member ∈ group.params, member.Returns (values member))
    : ((written values group.params).map Prod.snd).Pairwise group.Apart := by
  have names : ∀ member ∈ group.params,
      ∀ value ∈ values member, (member.argument value).Names member.key := by
    intro member isMember value isValue
    exact (copyable member isMember).argument_names
      ((returns member isMember).kept value isValue).whole.trimmed
  rw [List.pairwise_map, written, List.pairwise_flatMap]
  refine ⟨?_, ?_⟩
  · intro member isMember
    rw [List.pairwise_map]
    have several := (returns member isMember).pairwise fun several _ _ => several
    refine List.Pairwise.imp_of_mem ?_ several
    intro earlier later isEarlier _ several other isOther same _
    rw [eq_of_key isOther isMember (same.unique (names member isMember earlier isEarlier))]
    exact several
  · refine List.Pairwise.imp_of_mem ?_ (List.pairwise_map.1 group.params_keys_nodup)
    intro member other isMember isOther distinct x isWritten y isWritten' taken _ same same'
    obtain ⟨value, isValue, rfl⟩ := List.mem_map.1 isWritten
    obtain ⟨value', isValue', rfl⟩ := List.mem_map.1 isWritten'
    have key := same.unique (names member isMember value isValue)
    have key' := same'.unique (names other isOther value' isValue')
    exact absurd (key.symm.trans key') distinct

theorem Group.assignments_blockFor (copyable : ∀ member ∈ group.params, member.Copyable)
    (returns : ∀ member ∈ group.params, member.Returns (values member))
    : (group.blockFor values).assignments = written values group.params := by
  have kept := fun member isMember => (returns member isMember).kept
  have arguments := Group.arguments_blockFor (returns group.identity (by simp [params]))
  have assigned : (group.blockFor values).assignments
      = ((written values group.params).map Prod.snd).filterMap group.assignment? := by
    rw [← arguments]
    rfl
  rw [assigned, List.filterMap_map]
  have same : ∀ x ∈ written values group.params, (group.assignment? ∘ Prod.snd) x = some x :=
    fun x isWritten =>
      Group.assignment?_eq_some_iff.2
        ⟨(mem_written.1 isWritten).1, names_of_mem_written copyable kept x isWritten, rfl⟩
  rw [List.filterMap_congr same, List.filterMap_some]

theorem Group.separate_blockFor (declared : .repeating group ∈ schema.params)
    (copyable : ∀ member ∈ group.params, member.Copyable)
    (returns : ∀ member ∈ group.params, member.Returns (values member))
    : schema.Separate (group.blockFor values) := by
  have isIdentity : group.identity ∈ group.params := by simp [params]
  obtain ⟨value, only⟩ :=
    (returns _ isIdentity).exists_eq group.identity_required group.identity_single
  have keeps := (returns _ isIdentity).kept value (by simp [only])
  refine ⟨⟨declared, ?_⟩, ⟨?_, ?_⟩, nofun⟩
  · have first : (group.blockFor values).first = group.identity.argument value := by
      simp [blockFor, only]
    rw [first]
    exact (copyable _ isIdentity).argument_names keeps.whole.trimmed
  · intro argument isFollowing
    obtain ⟨x, isWritten, rfl⟩ := List.mem_map.1 isFollowing
    have subset : group.members ⊆ group.params := List.subset_cons_self _ _
    have names := names_of_mem_written (fun member h => copyable member (subset h))
      (fun member h => (returns member (subset h)).kept) x isWritten
    exact ⟨x.1, (mem_written.1 isWritten).1, names⟩
  · rw [Group.arguments_blockFor (returns _ isIdentity)]
    exact Group.pairwise_written copyable returns

/-- The blocks of some repetitions give a group these repetitions. -/
theorem Group.gives_blockFor {tables : List (Simple → List String)}
    (declared : .repeating group ∈ schema.params)
    (copyable : ∀ member ∈ group.params, member.Copyable)
    (returns : ∀ values ∈ tables, ∀ member ∈ group.params, member.Returns (values member))
    : schema.Gives (.repeating group)
        (.repeated (tables.map fun values =>
          group.params.map fun member => (member.name, values member)))
        (tables.map group.blockFor) := by
  have again : ∀ values ∈ tables, ∀ member ∈ group.params,
      assignedValues member.key (group.blockFor values).assignments = values member := by
    intro values isTable member isMember
    rw [assignments_blockFor copyable (returns values isTable)]
    exact assignedValues_written copyable (fun member h => (returns values isTable member h).kept)
      group.params_keys_nodup isMember
  refine ⟨List.forall_mem_map.2 fun _ _ => rfl, List.forall_mem_map.2 ?_,
    List.forall_mem_map.2 ?_, ?_, List.forall_mem_map.2 ?_, ?_, ?_⟩
  · exact fun values isTable => separate_blockFor declared copyable (returns values isTable)
  · intro values isTable
    rw [Block.Allowed, assignments_blockFor copyable (returns values isTable)]
    exact allows_of_mem_written copyable
      fun member isMember => (returns values isTable member isMember).kept
  · rw [List.pairwise_map]
    refine List.pairwise_of_forall fun _ _ => ?_
    intro plain isPlain
    cases isPlain
  · intro values isTable member isMember required
    rw [again values isTable member isMember]
    exact (returns values isTable member isMember).supplied required
  · intro plain isPlain
    cases isPlain
  · have all : (tables.map group.blockFor).filter (fun block => block.param = .repeating group)
        = tables.map group.blockFor :=
      List.filter_eq_self.2 (List.forall_mem_map.2 fun _ _ => decide_eq_true rfl)
    rw [contentsIn, all, List.map_map]
    congr 1
    refine List.map_congr_left ?_
    intro values isTable
    refine List.map_congr_left ?_
    intro member isMember
    rw [again values isTable member isMember, (returns values isTable member isMember).settled]

end Repeated

section Several

variable {schema : Schema} {copied : List Param} {contents : Param → Contents}
  {blocksOf : Param → List Block} {param : Param}

/-- The blocks of one parameter among those of several, by induction on the parameters. -/
theorem filter_flatMap_own (own : ∀ param ∈ copied, ∀ block ∈ blocksOf param, block.param = param)
    (distinct : copied.Nodup) (member : param ∈ copied)
    : ((copied.flatMap blocksOf).filter fun block => block.param = param) = blocksOf param := by
  induction copied with
  | nil => cases member
  | cons first rest ih =>
      obtain ⟨ownFirst, ownRest⟩ := List.forall_mem_cons.1 own
      obtain ⟨fresh, distinctRest⟩ := List.nodup_cons.1 distinct
      rw [List.flatMap_cons, List.filter_append]
      rcases List.mem_cons.1 member with rfl | later
      · have whole : (blocksOf param).filter (fun block => block.param = param)
            = blocksOf param :=
          List.filter_eq_self.2 fun block isBlock => decide_eq_true (ownFirst block isBlock)
        have none : (rest.flatMap blocksOf).filter (fun block => block.param = param) = [] := by
          refine List.filter_eq_nil_iff.2 ?_
          intro block isBlock same
          obtain ⟨other, isOther, isBlock⟩ := List.mem_flatMap.1 isBlock
          have other_eq := (ownRest other isOther block isBlock).symm.trans (of_decide_eq_true same)
          exact fresh (other_eq ▸ isOther)
        rw [whole, none, List.append_nil]
      · have none : (blocksOf first).filter (fun block => block.param = param) = [] := by
          refine List.filter_eq_nil_iff.2 ?_
          intro block isBlock same
          have first_eq := (ownFirst block isBlock).symm.trans (of_decide_eq_true same)
          exact fresh (first_eq ▸ later)
        rw [none, List.nil_append]
        exact ih ownRest distinctRest later

theorem Schema.separate_flatMap
    (gives : ∀ param ∈ copied, schema.Gives param (contents param) (blocksOf param))
    : ∀ block ∈ copied.flatMap blocksOf, schema.Separate block :=
  List.forall_mem_flatMap.2 fun param member => (gives param member).separate

/-- A schema admits blocks of several parameters that give each its contents, as long as the
required ones are among them.
-/
theorem Schema.admits_flatMap
    (gives : ∀ param ∈ copied, schema.Gives param (contents param) (blocksOf param))
    (distinct : copied.Nodup)
    (required
      : ∀ plain,
          .simple plain ∈ schema.params → plain.isRequired = true → .simple plain ∈ copied)
    : schema.Admits (copied.flatMap blocksOf) := by
  have own := fun param member => (gives param member).own
  refine ⟨List.forall_mem_flatMap.2 fun param member => (gives param member).allowed, ?_,
    List.forall_mem_flatMap.2 fun param member => (gives param member).filled, ?_⟩
  · rw [List.pairwise_flatMap]
    refine ⟨fun param member => (gives param member).once, ?_⟩
    refine List.Pairwise.imp_of_mem ?_ distinct
    intro param other isParam isOther apart earlier isEarlier later isLater plain same same'
    have param_eq := (own param isParam earlier isEarlier).symm.trans same
    have other_eq := (own other isOther later isLater).symm.trans same'
    exact absurd (param_eq.trans other_eq.symm) apart
  · intro plain isDeclared isRequired
    have isCopied := required plain isDeclared isRequired
    have declared := fun block member => (separate_flatMap gives block member).owned.1
    rw [← assignedValues_filter declared isDeclared, filter_flatMap_own own distinct isCopied]
    exact (gives _ isCopied).supplied plain rfl isRequired

/-- Each of several parameters has its own contents after the blocks of all. -/
theorem Schema.contentsIn_flatMap
    (gives : ∀ param ∈ copied, schema.Gives param (contents param) (blocksOf param))
    (distinct : copied.Nodup) (isDeclared : param ∈ schema.params) (member : param ∈ copied)
    : contentsIn (copied.flatMap blocksOf) param = contents param := by
  have own := fun param member => (gives param member).own
  have declared := fun block member => (separate_flatMap gives block member).owned.1
  rw [← contentsIn_filter declared isDeclared, filter_flatMap_own own distinct member]
  exact (gives param member).contents

end Several

end ArgBinding
