import ArgBinding.Proofs.WrittenBlocks

/-! Copied arguments are bound to the same values again. The copy of a plain parameter is one block
for each value and the copy of a group one block for each repetition, so what is copied does not
depend on the order of the names nor on how the values were given.
-/

namespace ArgBinding

open ArgBinding.Text

section Copied

variable {schema : Schema} {params : List Param} {names : List String}

/-- Of declared parameters those are left whose key did not come before, by induction on the
parameters.
-/
theorem Bound.mem_distinct {before : List String} {param : Param}
    (declared : params ⊆ schema.params)
    : param ∈ distinct before params ↔ param ∈ params ∧ param.key ∉ before := by
  induction params generalizing before with
  | nil => simp [distinct]
  | cons first rest ih =>
      obtain ⟨firstDeclared, restDeclared⟩ := List.cons_subset.1 declared
      unfold distinct
      split
      · rename_i known
        have known : first.key ∈ before := by simpa using known
        rw [ih restDeclared, List.mem_cons]
        constructor
        · exact fun h => ⟨Or.inr h.1, h.2⟩
        · intro h
          rcases h with ⟨rfl | later, fresh⟩
          · exact absurd known fresh
          · exact ⟨later, fresh⟩
      · rename_i fresh
        have fresh : first.key ∉ before := by simpa using fresh
        rw [List.mem_cons, ih restDeclared, List.mem_cons, List.mem_cons, not_or]
        constructor
        · intro h
          rcases h with rfl | ⟨later, -, absent⟩
          · exact ⟨Or.inl rfl, fresh⟩
          · exact ⟨Or.inr later, absent⟩
        · intro h
          rcases h with ⟨rfl | later, absent⟩
          · exact Or.inl rfl
          · by_cases same : param.key = first.key
            · exact Or.inl (Schema.eq_of_key (restDeclared later) firstDeclared same)
            · exact Or.inr ⟨later, same, absent⟩

theorem Bound.nodup_distinct {before : List String} (declared : params ⊆ schema.params)
    : (distinct before params).Nodup := by
  induction params generalizing before with
  | nil => exact List.nodup_nil
  | cons first rest ih =>
      obtain ⟨-, restDeclared⟩ := List.cons_subset.1 declared
      unfold distinct
      split
      · exact ih restDeclared
      · refine List.nodup_cons.2 ⟨?_, ih restDeclared⟩
        rw [Bound.mem_distinct restDeclared]
        exact fun h => h.2 (by simp)

/-- Names that are declared mean their parameters, by induction on the names. -/
theorem Schema.mapM_named_completed (replacer : Replacer) (progress : Progress)
    (known : ∀ name ∈ names, ∃ param ∈ schema.params, lower name = param.key)
    : ∃ params,
        (names.map some).mapM (schema.completed replacer progress).named = .ok params
        ∧ ∀ param,
            param ∈ params
            ↔ param ∈ schema.params ∧ ∃ name ∈ names, lower name = param.key := by
  induction names with
  | nil => exact ⟨[], rfl, by simp⟩
  | cons name rest ih =>
      obtain ⟨⟨first, isDeclared, key⟩, knownRest⟩ := List.forall_mem_cons.1 known
      obtain ⟨params, run, meant⟩ := ih knownRest
      refine ⟨first :: params, ?_, ?_⟩
      · rw [List.map_cons, List.mapM_cons, Schema.named_completed isDeclared key, run]
        rfl
      · intro param
        simp only [List.mem_cons, meant, exists_eq_or_imp]
        constructor
        · intro h
          rcases h with rfl | ⟨isParam, named⟩
          · exact ⟨isDeclared, Or.inl key⟩
          · exact ⟨isParam, Or.inr named⟩
        · intro h
          rcases h with ⟨isParam, same | named⟩
          · exact Or.inl (Schema.eq_of_key isParam isDeclared (same.symm.trans key))
          · exact Or.inr ⟨isParam, named⟩

/-- The copy of declared names has the arguments of each parameter that is named, once. -/
theorem Schema.copy_completed (replacer : Replacer) (progress : Progress)
    (known : ∀ name ∈ names, ∃ param ∈ schema.params, lower name = param.key)
    : ∃ copied : List Param,
        (schema.completed replacer progress).copy (names.map some)
          = .ok (copied.flatMap (schema.completed replacer progress).argumentsOf)
        ∧ copied.Nodup
        ∧ ∀ param,
            param ∈ copied
            ↔ param ∈ schema.params ∧ ∃ name ∈ names, lower name = param.key := by
  obtain ⟨params, run, meant⟩ := Schema.mapM_named_completed replacer progress known
  have declared : params ⊆ schema.params := fun param member => ((meant param).1 member).1
  refine ⟨Bound.distinct [] params, ?_, Bound.nodup_distinct declared, ?_⟩
  · rw [Bound.copy, run]
    rfl
  · intro param
    rw [Bound.mem_distinct declared, ← meant]
    simp

end Copied

-----------------------------------------------------------------------------------------
-- Binding the copy
-----------------------------------------------------------------------------------------

/-- The parameter and, for a group, its members. -/
def Param.simples : Param → List Simple
  | .simple param => [param]
  | .repeating group => group.params

/-- All parameters can be copied, and no member of a group goes by the name of another parameter.
-/
structure Schema.Copyable (schema : Schema) : Prop where
  each : ∀ param ∈ schema.params, ∀ plain ∈ param.simples, plain.Copyable
  apart : schema.MembersApart

section Again

variable {schema : Schema} {blocks : List Block}

/-- The values of a plain parameter after admitted blocks are bound again. -/
theorem Schema.Admits.returns_plain {param : Simple} (admitted : schema.Admits blocks)
    (declared : ∀ block ∈ blocks, block.param ∈ schema.params)
    (shaped : ∀ block ∈ blocks, block.Shaped)
    (trimmed : ∀ block ∈ blocks, ∀ argument ∈ block.arguments, Trimmed argument.value)
    (isDeclared : .simple param ∈ schema.params) (copyable : param.Copyable)
    : param.Returns (param.orDefault (assignedValues param.key (plainAssignments blocks))) := by
  refine copyable.returns ?_ ?_ ?_ ?_ (admitted.supplied param isDeclared)
  · exact fun x => eq_of_mem_plainAssignments declared isDeclared
  · intro x isPlain
    obtain ⟨block, member, isPlain⟩ := List.mem_flatMap.1 isPlain
    have isAssigned := Block.mem_assignments_of_mem_plainAssignments isPlain
    exact trimmed block member x.2 (Block.mem_arguments_of_mem_assignments isAssigned)
  · exact fun x => allows_of_mem_plainAssignments admitted.allowed
  · exact (pairwise_plainAssignments_iff declared shaped).2 admitted.once

/-- The values of a member in a repetition are bound again. -/
theorem Schema.Admits.returns_member {group : Group} {block : Block} {member : Simple}
    (admitted : schema.Admits blocks) (isBlock : block ∈ blocks) (shaped : block.Shaped)
    (trimmed : ∀ argument ∈ block.arguments, Trimmed argument.value)
    (isGroup : block.param = .repeating group) (isMember : member ∈ group.params)
    (copyable : member.Copyable)
    : member.Returns ((block.table group).at member.key) := by
  have allowed := admitted.allowed block isBlock
  have filled := admitted.filled block isBlock
  rw [Block.at_table isMember]
  obtain ⟨param, first, following⟩ := block
  cases isGroup
  refine copyable.returns ?_ ?_ allowed (Group.pairwise_filterMap_assignment? shaped.2)
    (filled member isMember)
  · exact fun x => Block.eq_of_mem_assignments rfl isMember
  · exact fun x isAssigned => trimmed x.2 (Block.mem_arguments_of_mem_assignments isAssigned)

/-- The copy of a parameter makes blocks that give it what it has. -/
theorem Schema.Admits.exists_gives {param : Param} (admitted : schema.Admits blocks)
    (declared : ∀ block ∈ blocks, block.param ∈ schema.params)
    (shaped : ∀ block ∈ blocks, block.Shaped)
    (trimmed : ∀ block ∈ blocks, ∀ argument ∈ block.arguments, Trimmed argument.value)
    (isDeclared : param ∈ schema.params) (copyable : ∀ plain ∈ param.simples, plain.Copyable)
    : ∃ again,
        schema.Gives param ((schema.completed id (progressOf blocks)).contentsOf param) again
        ∧ ((schema.completed id (progressOf blocks)).argumentsOf param).map Argument.ofText
          = again.flatMap Block.arguments := by
  cases param with
  | simple param =>
      have copyable : param.Copyable := copyable param (by simp [Param.simples])
      have returns := admitted.returns_plain declared shaped trimmed isDeclared copyable
      rw [Bound.contentsOf, Bound.argumentsOf, Schema.values_at_completed isDeclared]
      simp only [progressOf, boundValues_bindingsOf]
      refine ⟨_, Simple.gives_blocksFor isDeclared copyable returns, ?_⟩
      rw [Simple.blocksFor, List.flatMap_map, List.map_map]
      exact List.map_eq_flatMap
  | repeating group =>
      have returns : ∀ block ∈ blocks.filter fun block => block.param = .repeating group,
          ∀ member ∈ group.params, member.Returns ((block.table group).at member.key) := by
        intro block isOwn member isMember
        obtain ⟨isBlock, isGroup⟩ := List.mem_filter.1 isOwn
        exact admitted.returns_member isBlock (shaped block isBlock) (trimmed block isBlock)
          (of_decide_eq_true isGroup) isMember (copyable member isMember)
      have isTable : ∀ values ∈ (blocks.filter fun block => block.param = .repeating group).map
            (fun block (member : Simple) => (block.table group).at member.key),
          ∀ member ∈ group.params, member.Returns (values member) := by
        intro values isTable
        obtain ⟨block, isOwn, rfl⟩ := List.mem_map.1 isTable
        exact returns block isOwn
      have gives := Group.gives_blockFor isDeclared copyable isTable
      rw [Bound.contentsOf, Bound.argumentsOf, Schema.repetitionsAt_completed isDeclared]
      simp only [progressOf, repetitionsOf_filterMap id declared isDeclared, List.map_map]
        at gives ⊢
      refine ⟨_, gives, ?_⟩
      rw [List.flatMap_map, List.flatMap_map, List.map_flatMap]
      refine List.flatMap_congr ?_
      intro block isOwn
      have identity := returns block isOwn group.identity (by simp [Group.params])
      rw [Function.comp_apply, Group.arguments_blockFor identity]
      simp [Repetition.arguments, written, List.map_flatMap, Simple.argument, Function.comp_def]

end Again

/-- Arguments that were copied from a result are accepted again, under all declared names that
include those of the required parameters. What was copied is what it was, and everything else is
untouched. Witness: the blocks that are written for the copied parameters.
-/
theorem bind_copied {entries : List Entry} {schema : Schema} {arguments : List (Option String)}
    {bound : Bound} {names : List String} (accepted : Schema.declare entries = .ok schema)
    (copyable : schema.Copyable) (isBound : (bind entries id arguments).result = .ok bound)
    (known : ∀ name ∈ names, ∃ param ∈ schema.params, lower name = param.key)
    (required
      : ∀ param ∈ schema.params,
          param.isRequired = true → ∃ name ∈ names, lower name = param.key)
    : ∃ texts again,
        bound.copy (names.map some) = .ok texts
        ∧ (bind entries id (texts.map some)).result = .ok again
        ∧ ∀ param ∈ schema.params,
            ((∃ name ∈ names, lower name = param.key)
              → again.contentsOf param = bound.contentsOf param)
            ∧ ((¬ ∃ name ∈ names, lower name = param.key)
              → again.contentsOf param = param.untouched) := by
  obtain ⟨-, leading, named, cut, admitted, rfl⟩ := (bind_result_eq_ok_iff_cut accepted).1 isBound
  have trimmed := cut.trimmed
  obtain ⟨copied, copies, distinct, isCopied⟩ :=
    Schema.copy_completed id (progressOf (leading ++ named)) known
  have subset : copied ⊆ schema.params := fun param member => ((isCopied param).1 member).1
  have exist := fun param member =>
    admitted.exists_gives cut.declared cut.shaped trimmed (subset member)
      (copyable.each param (subset member))
  choose! blocksOf gives texts using exist
  have admits : schema.Admits (copied.flatMap blocksOf) := by
    refine Schema.admits_flatMap gives distinct ?_
    exact fun plain isDeclared isRequired =>
      (isCopied _).2 ⟨isDeclared, required _ isDeclared isRequired⟩
  have separate := Schema.separate_flatMap gives
  have whole : Argument.ofTexts ((copied.flatMap
        (schema.completed id (progressOf (leading ++ named))).argumentsOf).map some)
      = (copied.flatMap blocksOf).flatMap Block.arguments := by
    rw [Argument.ofTexts_map_some, List.map_flatMap, List.flatMap_assoc]
    exact List.flatMap_congr texts
  refine ⟨_, schema.completed id (progressOf (copied.flatMap blocksOf)), copies,
    (bind_separate_eq_ok_iff accepted copyable.apart separate whole).2 ⟨admits, rfl⟩, ?_⟩
  intro param isDeclared
  rw [contentsOf_completed (fun block isBlock => (separate block isBlock).owned.1) isDeclared]
  refine ⟨?_, ?_⟩
  · exact fun isNamed =>
      Schema.contentsIn_flatMap gives distinct isDeclared
        ((isCopied param).2 ⟨isDeclared, isNamed⟩)
  · intro notNamed
    refine contentsIn_eq_untouched ?_
    intro block isBlock same
    obtain ⟨other, member, isBlock⟩ := List.mem_flatMap.1 isBlock
    rw [(gives other member).own block isBlock] at same
    obtain rfl := Schema.eq_of_key (subset member) isDeclared same
    exact notNamed ((isCopied other).1 member).2

namespace Trade

theorem copyable : schema.Copyable := by
  refine ⟨?_, membersApart⟩
  have each : ∀ param ∈ schema.params,
      ∀ plain ∈ param.simples,
        Trimmed plain.name
        ∧ plain.name.toList.all (!isNameEnd ·) = true
        ∧ (∀ choice ∈ plain.choices.getD [], plain.Whole choice)
        ∧ ∀ default ∈ plain.default?, plain.Keeps default := by
    decide +kernel
  intro param isDeclared plain isPlain
  obtain ⟨trimmed, unended, choices, default⟩ := each param isDeclared plain isPlain
  exact ⟨trimmed, by simpa using unended, choices, default⟩

def copiedNames : List String :=
  ["FILL", "side", "account", "Fill"]

end Trade

/-- A trade is copied without its tags: the fills, in front of the account now, are the same. -/
theorem trade_copied
    : Schema.declare Trade.entries = .ok Trade.schema
      ∧ Trade.schema.Copyable
      ∧ (∀ name ∈ Trade.copiedNames, ∃ param ∈ Trade.schema.params, lower name = param.key)
      ∧ (∀ param ∈ Trade.schema.params,
          param.isRequired = true → ∃ name ∈ Trade.copiedNames, lower name = param.key)
      ∧ ∃ bound texts again,
          (bind Trade.entries id Trade.arguments).result = .ok bound
          ∧ bound.copy (Trade.copiedNames.map some) = .ok texts
          ∧ (bind Trade.entries id (texts.map some)).result = .ok again
          ∧ again.contentsOf (.repeating Trade.fills) = bound.contentsOf (.repeating Trade.fills)
          ∧ again.contentsOf (.simple Trade.tags) = .plain [] := by
  have known : ∀ name ∈ Trade.copiedNames,
      ∃ param ∈ Trade.schema.params, lower name = param.key := by
    decide
  have required : ∀ param ∈ Trade.schema.params,
      param.isRequired = true → ∃ name ∈ Trade.copiedNames, lower name = param.key := by
    decide
  have isBound : (bind Trade.entries id Trade.arguments).result.toOption.isSome = true := by
    decide +kernel
  obtain ⟨bound, bound_ok⟩ := exists_eq_ok_of_isSome isBound
  obtain ⟨texts, again, copies, again_ok, contents⟩ :=
    bind_copied Trade.declare_entries Trade.copyable bound_ok known required
  have fills := (contents (.repeating Trade.fills) (by decide)).1 (by decide)
  have tags := (contents (.simple Trade.tags) (by decide)).2 (by decide)
  exact ⟨Trade.declare_entries, Trade.copyable, known, required, bound, texts, again, bound_ok,
    copies, again_ok, fills, tags⟩

end ArgBinding
