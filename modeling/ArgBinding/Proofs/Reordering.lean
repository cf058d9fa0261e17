import ArgBinding.Proofs.NamedBlocks

/-! The order of named blocks. Where each block names its parameter, blocks of different parameters
may change places: what is admitted, and what each parameter has in the end, depend only on the
blocks of each parameter in their order.
-/

namespace ArgBinding

open ArgBinding.Text

/-- The same blocks in another order, with those of each parameter in the same order. -/
structure Reordered {schema : Schema} (blocks others : List (NamedTexts schema)) : Prop where
  perm : blocks.Perm others
  order
    : ∀ param,
        (blocks.filter fun block => block.param = param)
          = others.filter fun block => block.param = param

theorem Block.Apart.symm {earlier later : Block} (apart : earlier.Apart later)
    : later.Apart earlier :=
  fun param isLater isEarlier => apart param isEarlier isLater

/-- A schema admits the same blocks in another order as long as those of each parameter keep
theirs.
-/
theorem Schema.Admits.reorder {schema : Schema} {blocks others : List Block}
    (admitted : schema.Admits blocks) (perm : blocks.Perm others)
    (order
      : ∀ param,
          (blocks.filter fun block => block.param = param)
            = others.filter fun block => block.param = param)
    (declared : ∀ block ∈ blocks, block.param ∈ schema.params)
    : schema.Admits others := by
  have othersDeclared : ∀ block ∈ others, block.param ∈ schema.params :=
    fun block member => declared block (perm.mem_iff.2 member)
  refine ⟨?_, ?_, ?_, ?_⟩
  · exact fun block member => admitted.allowed block (perm.mem_iff.2 member)
  · exact (perm.pairwise_iff Block.Apart.symm).1 admitted.once
  · exact fun block member => admitted.filled block (perm.mem_iff.2 member)
  · intro param isDeclared required
    rw [← assignedValues_filter othersDeclared isDeclared, ← order,
      assignedValues_filter declared isDeclared]
    exact admitted.supplied param isDeclared required

namespace Reordered

variable {schema : Schema} {blocks others : List (NamedTexts schema)}

theorem symm (reordered : Reordered blocks others) : Reordered others blocks :=
  ⟨reordered.perm.symm, fun param => (reordered.order param).symm⟩

/-- A block may move in front of blocks of other parameters. -/
theorem move (block : NamedTexts schema) {before : List (NamedTexts schema)}
    (rest : List (NamedTexts schema)) (others : ∀ other ∈ before, other.param ≠ block.param)
    : Reordered (before ++ block :: rest) (block :: before ++ rest) := by
  refine ⟨List.perm_middle, ?_⟩
  intro param
  rw [List.filter_append, List.cons_append]
  by_cases own : block.param = param
  · have none : (before.filter fun other => other.param = param) = [] := by
      rw [List.filter_eq_nil_iff]
      intro other member same
      exact others other member ((of_decide_eq_true same).trans own.symm)
    rw [List.filter_cons_of_pos (by simpa using own), List.filter_cons_of_pos (by simpa using own),
      List.filter_append, none]
    rfl
  · rw [List.filter_cons_of_neg (by simpa using own), List.filter_cons_of_neg (by simpa using own),
      List.filter_append]

theorem filter_map_block (reordered : Reordered blocks others) (param : Param)
    : ((blocks.map NamedTexts.block).filter fun block => block.param = param)
      = (others.map NamedTexts.block).filter fun block => block.param = param := by
  rw [List.filter_map, List.filter_map]
  exact congrArg (List.map NamedTexts.block) (reordered.order param)

end Reordered

/-- Named blocks are accepted in one order exactly when they are in another, and all parameters have
the same values and repetitions then, as long as the blocks of each parameter keep their order.
-/
theorem bind_reordered {entries : List Entry} {schema : Schema}
    {blocks others : List (NamedTexts schema)} (replacer : Replacer)
    (accepted : Schema.declare entries = .ok schema) (apart : schema.MembersApart)
    (reordered : Reordered blocks others)
    : ((∃ bound, (bind entries replacer (argumentsIn blocks)).result = .ok bound)
        ↔ ∃ bound, (bind entries replacer (argumentsIn others)).result = .ok bound)
      ∧ ∀ bound other,
          (bind entries replacer (argumentsIn blocks)).result = .ok bound
          → (bind entries replacer (argumentsIn others)).result = .ok other
          → other.contents = bound.contents := by
  simp only [bind_argumentsIn_eq_ok_iff accepted apart]
  refine ⟨⟨?_, ?_⟩, ?_⟩
  · intro h
    rcases h with ⟨_, admitted, -⟩
    exact ⟨_, admitted.reorder (reordered.perm.map _) reordered.filter_map_block
      declared_of_mem_map_block, rfl⟩
  · intro h
    rcases h with ⟨_, admitted, -⟩
    exact ⟨_, admitted.reorder (reordered.symm.perm.map _) reordered.symm.filter_map_block
      declared_of_mem_map_block, rfl⟩
  · intro bound other h h'
    obtain ⟨-, rfl⟩ := h
    obtain ⟨-, rfl⟩ := h'
    rw [Schema.contents_completed, Schema.contents_completed]
    refine List.map_congr_left ?_
    intro param isDeclared
    rw [contentsOf_completed declared_of_mem_map_block isDeclared,
      contentsOf_completed declared_of_mem_map_block isDeclared,
      ← contentsIn_filter declared_of_mem_map_block isDeclared,
      ← reordered.filter_map_block, contentsIn_filter declared_of_mem_map_block isDeclared]

namespace Trade

def accountText : NamedTexts schema :=
  .single account "account: joe" (by decide) (by decide)

def sideText : NamedTexts schema :=
  .single side "SIDE = buy" (by decide) (by decide)

def tagsText : NamedTexts schema :=
  .single tags "tags: a,b" (by decide) (by decide)

def fillTexts : NamedTexts schema :=
  {
    param := .repeating fills
    first := "fill: 1"
    following := ["price: 2"]
    declared := by decide
    names := by decide
    alone := nofun
    members := by
      intro group same
      cases same
      exact ⟨by decide, List.pairwise_singleton _ _⟩
  }

end Trade

/-- An account that is named behind a fill may come first as well, where it is taken as the leading
parameter that it is.
-/
theorem trade_reordered
    : Schema.declare Trade.entries = .ok Trade.schema
      ∧ Trade.schema.MembersApart
      ∧ Reordered ([Trade.fillTexts, Trade.tagsText] ++ Trade.accountText :: [Trade.sideText])
          (Trade.accountText :: [Trade.fillTexts, Trade.tagsText] ++ [Trade.sideText])
      ∧ ∃ bound other,
          (bind Trade.entries id
            (argumentsIn
              ([Trade.fillTexts, Trade.tagsText] ++ Trade.accountText :: [Trade.sideText]))).result
            = .ok bound
          ∧ (bind Trade.entries id
              (argumentsIn
                (Trade.accountText :: [Trade.fillTexts, Trade.tagsText]
                  ++ [Trade.sideText]))).result = .ok other
          ∧ other.contents = bound.contents := by
  have reordered := Reordered.move Trade.accountText [Trade.sideText]
    (show ∀ other ∈ [Trade.fillTexts, Trade.tagsText], other.param ≠ Trade.accountText.param by
      decide)
  have isBound : (bind Trade.entries id
      (argumentsIn ([Trade.fillTexts, Trade.tagsText]
        ++ Trade.accountText :: [Trade.sideText]))).result.toOption.isSome = true := by
    decide +kernel
  obtain ⟨succeeds, same⟩ := bind_reordered id Trade.declare_entries Trade.membersApart reordered
  obtain ⟨bound, bound_ok⟩ := exists_eq_ok_of_isSome isBound
  obtain ⟨other, other_ok⟩ := succeeds.1 ⟨bound, bound_ok⟩
  exact ⟨Trade.declare_entries, Trade.membersApart, reordered, bound, other, bound_ok, other_ok,
    same bound other bound_ok other_ok⟩

end ArgBinding
