import ArgBinding.Proofs.Runs

/-! The cut of some arguments into blocks is unique. A block is all that goes on with its first
argument, so what is cut from the front for one parameter is decided by what stands there, and the
first argument behind it decides whether the walk over the leading parameters goes on.
-/

namespace ArgBinding

open ArgBinding.Text

/-- What is cut from the front of some arguments for one parameter is one block. -/
theorem Block.CutBefore.unique {block other : Block} {behind rest : List Argument}
    (cut : block.CutBefore behind) (otherCut : other.CutBefore rest)
    (same : block.param = other.param)
    (names : ∀ group, block.param = .repeating group → block.first.Names group.key)
    (whole : block.arguments ++ behind = other.arguments ++ rest)
    : block = other ∧ behind = rest := by
  obtain ⟨param, first, following⟩ := block
  obtain ⟨_, start, others⟩ := other
  cases same
  simp only [arguments, List.cons_append, List.cons.injEq] at whole
  obtain ⟨rfl, whole⟩ := whole
  obtain rfl : following = others := by
    cases param with
    | simple param =>
        have taken := Simple.continuation_eq_iff.2 cut
        rw [whole] at taken
        exact taken.symm.trans (Simple.continuation_eq_iff.2 otherCut)
    | repeating group =>
        have names := names group rfl
        have taken := ((Group.cutBefore_iff names).1 cut).1
        rw [whole] at taken
        exact taken.symm.trans ((Group.cutBefore_iff names).1 otherCut).1
  exact ⟨rfl, List.append_cancel_left whole⟩

/-- Arguments are cut into blocks that start with a name in one way, by induction on the blocks: the
name of the first argument decides whose block it starts.
-/
theorem Consecutive.unique {schema : Schema} {blocks others : List Block}
    (consecutive : Consecutive blocks []) (otherConsecutive : Consecutive others [])
    (owned : ∀ block ∈ blocks, schema.Owns block) (otherOwned : ∀ block ∈ others, schema.Owns block)
    (whole : blocks.flatMap Block.arguments = others.flatMap Block.arguments)
    : blocks = others := by
  induction blocks generalizing others with
  | nil =>
      cases others with
      | nil => rfl
      | cons other others => simp [Block.arguments] at whole
  | cons block rest ih =>
      cases others with
      | nil => simp [Block.arguments] at whole
      | cons other others =>
          obtain ⟨⟨declared, names⟩, ownedRest⟩ := List.forall_mem_cons.1 owned
          obtain ⟨⟨otherDeclared, otherNames⟩, otherOwnedRest⟩ := List.forall_mem_cons.1 otherOwned
          have sameFirst : block.first = other.first := (List.cons.inj whole).1
          have same : block.param = other.param :=
            Schema.eq_of_key declared otherDeclared (names.unique (sameFirst ▸ otherNames))
          obtain ⟨rfl, wholeRest⟩ := consecutive.1.unique otherConsecutive.1 same
            (fun group isGroup => by rwa [isGroup] at names) (by simpa using whole)
          rw [ih consecutive.2 otherConsecutive.2 ownedRest otherOwnedRest
            (by simpa using wholeRest)]

-----------------------------------------------------------------------------------------
-- The walk over the leading required parameters
-----------------------------------------------------------------------------------------

/-- The walk over some parameters takes these blocks from the front and leaves the rest. -/
structure Walked (params : List Param) (leading : List Block) (rest : List Argument)
    : Prop where
  walked : leading.map Block.param <+: params
  met
    : ∀ block ∈ leading, block.param.isRequired = true ∧ block.first.Fits block.param.key
  left
    : ∀ param ∈ params[leading.length]?,
        ∀ next ∈ rest.head?, param.isRequired = true → ¬ next.Fits param.key
  consecutive : Consecutive leading rest

namespace Walked

variable {params : List Param} {leading others : List Block} {rest behind : List Argument}

/-- A walk that takes nothing is not in front of an argument that another walk takes. -/
theorem ends {other : Block} (walk : Walked params [] rest)
    (otherWalk : Walked params (other :: others) behind)
    : rest.head? ≠ some other.first := by
  intro isFirst
  obtain ⟨required, fits⟩ := otherWalk.met other (by simp)
  obtain ⟨later, rfl⟩ := otherWalk.walked
  exact walk.left other.param (by simp) other.first isFirst required fits

/-- Behind the first block the walk goes on over the other parameters. -/
theorem tail {param : Param} {block : Block}
    (walk : Walked (param :: params) (block :: leading) rest)
    : block.param = param ∧ Walked params leading rest := by
  obtain ⟨walked, met, left, consecutive⟩ := walk
  obtain ⟨same, walked⟩ := List.cons_prefix_cons.1 walked
  exact ⟨same, walked, (List.forall_mem_cons.1 met).2, left, consecutive.2⟩

/-- Two walks over the same parameters take the same blocks, by induction on the blocks. -/
theorem unique (walk : Walked params leading rest) (otherWalk : Walked params others behind)
    (whole : leading.flatMap Block.arguments ++ rest = others.flatMap Block.arguments ++ behind)
    : leading = others ∧ rest = behind := by
  induction leading generalizing params others with
  | nil =>
      cases others with
      | nil => exact ⟨rfl, whole⟩
      | cons other others => exact absurd (congrArg List.head? whole) (walk.ends otherWalk)
  | cons block leading ih =>
      cases others with
      | nil => exact absurd (congrArg List.head? whole.symm) (otherWalk.ends walk)
      | cons other others =>
          cases params with
          | nil => cases List.prefix_nil.1 walk.walked
          | cons param params =>
              obtain ⟨isParam, walkRest⟩ := walk.tail
              obtain ⟨isOther, otherWalkRest⟩ := otherWalk.tail
              have plain : ∀ group,
                  block.param = .repeating group → block.first.Names group.key := by
                intro group isGroup
                have required := (walk.met block (by simp)).1
                simp [isGroup, Param.isRequired] at required
              obtain ⟨rfl, wholeRest⟩ := walk.consecutive.1.unique otherWalk.consecutive.1
                (isParam.trans isOther.symm) plain (by simpa using whole)
              obtain ⟨rfl, same⟩ := ih walkRest otherWalkRest wholeRest
              exact ⟨rfl, same⟩

end Walked

-----------------------------------------------------------------------------------------
-- Cuts
-----------------------------------------------------------------------------------------

namespace Schema.Cut

variable {schema : Schema} {arguments : List Argument} {leading named others behind : List Block}

theorem walk (cut : schema.Cut arguments leading named)
    : Walked schema.params leading (named.flatMap Block.arguments) := by
  obtain ⟨-, walked, met, left, -, consecutive⟩ := cut.partialCut
  refine ⟨walked, met, by simpa using left, ?_⟩
  simpa using (consecutive_append.1 consecutive).1

/-- There is one way at most to cut some arguments into blocks. -/
theorem unique (cut : schema.Cut arguments leading named)
    (other : schema.Cut arguments others behind)
    : leading = others ∧ named = behind := by
  have whole := cut.whole.trans other.whole.symm
  rw [List.flatMap_append, List.flatMap_append] at whole
  obtain ⟨rfl, rest⟩ := cut.walk.unique other.walk whole
  exact ⟨rfl, (consecutive_append.1 cut.consecutive).2.unique
    (consecutive_append.1 other.consecutive).2 cut.owned other.owned rest⟩

end Schema.Cut

end ArgBinding
