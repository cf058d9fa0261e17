import ArgBinding.Proofs.Admission

/-! Runs that fail. A run fails in the walk over the leading parameters, or on one block behind
blocks that can be bound; what is behind the arguments at which it fails makes no difference to the
blocks in front of them.
-/

namespace ArgBinding

open ArgBinding.Text

namespace Schema.PartialCut

variable {schema : Schema} {arguments behind : List Argument} {leading named : List Block}

/-- More arguments may come behind those that are left. -/
theorem append {next : Argument}
    (cut : schema.PartialCut arguments leading named (next :: behind)) (more : List Argument)
    : schema.PartialCut (arguments ++ more) leading named (next :: behind ++ more) := by
  refine {
    whole := by rw [← cut.whole, List.append_assoc]
    walked := cut.walked
    met := cut.met
    left := ?_
    owned := cut.owned
    consecutive := cut.consecutive.of_head? rfl
  }
  have left := cut.left
  rw [List.head?_append] at left ⊢
  exact left

/-- A block at the end is cut from what is behind the blocks in front of it. -/
theorem snoc_iff {block : Block}
    : schema.PartialCut arguments leading (named ++ [block]) behind
      ↔ schema.PartialCut arguments leading named (block.arguments ++ behind)
        ∧ schema.Owns block
        ∧ block.CutBefore behind := by
  constructor
  · intro cut
    obtain ⟨whole, walked, met, left, owned, consecutive⟩ := cut
    rw [← List.append_assoc] at consecutive
    obtain ⟨before, ⟨last, -⟩⟩ := consecutive_append.1 consecutive
    refine ⟨⟨by simpa using whole, walked, met, by simpa using left, ?_, by simpa using before⟩,
      owned block (by simp), by simpa using last⟩
    exact fun other member => owned other (List.mem_append_left _ member)
  · intro h
    rcases h with ⟨⟨whole, walked, met, left, owned, consecutive⟩, owns, last⟩
    refine ⟨by simpa using whole, walked, met, by simpa using left, ?_, ?_⟩
    · intro other member
      rcases List.mem_append.1 member with earlier | same
      · exact owned other earlier
      · rwa [List.mem_singleton.1 same]
    · rw [← List.append_assoc]
      exact consecutive_append.2 ⟨by simpa using consecutive, by simpa using last, trivial⟩

/-- Blocks that can be bound are, and the run goes on with what is behind them. -/
theorem bindArguments_eq (cut : schema.PartialCut arguments leading named behind)
    (bindable : Bindable (leading ++ named))
    : bindArguments schema arguments
      = bindNamed schema (progressOf (leading ++ named)) behind :=
  bindArguments_of_partialCut cut
    ((bindBlocks_start_eq_ok_iff cut.declared cut.consecutive.shaped).2 ⟨bindable, rfl⟩)

end Schema.PartialCut

/-- Binding by name fails on one block, behind blocks that can be bound; induction on the run. -/
theorem exists_blocks_of_bindNamed_eq_error {schema : Schema} {progress : Progress}
    {arguments : List Argument} {halt : Halt}
    (fails : bindNamed schema progress arguments = .error halt)
    : ∃ (blocks : List Block) (first : Argument) (rest : List Argument),
        blocks.flatMap Block.arguments ++ first :: rest = arguments
        ∧ (∀ block ∈ blocks, schema.Owns block)
        ∧ Consecutive blocks (first :: rest)
        ∧ bindBlocks blocks progress = .ok halt.progress
        ∧ bindBlock schema halt.progress first rest = .error halt.error := by
  fun_induction bindNamed schema progress arguments with
  | case1 progress => cases fails
  | case2 progress first rest error failed =>
      cases fails
      exact ⟨[], first, rest, rfl, by simp, trivial, rfl, failed⟩
  | case3 progress first rest next remaining bound ih =>
      obtain ⟨blocks, failing, others, whole, owned, consecutive, run, failed⟩ := ih fails
      obtain ⟨block, rfl, rfl, owns, cut, bound⟩ := bindBlock_eq_ok_iff.1 bound
      refine ⟨block :: blocks, failing, others, ?_, ?_, ⟨by rwa [whole], consecutive⟩,
        bindBlocks_cons_eq_ok_iff.2 ⟨next, bound, run⟩, failed⟩
      · rw [List.flatMap_cons, List.append_assoc, whole]
        rfl
      · exact List.forall_mem_cons.2 ⟨owns, owned⟩

/-- A run that fails either fails in the walk over the leading parameters, or on a block behind
blocks that can be bound.
-/
theorem exists_partialCut_of_bindArguments_eq_error {schema : Schema} {arguments : List Argument}
    {halt : Halt} (fails : bindArguments schema arguments = .error halt)
    : bindLeading schema.params arguments [] = .error halt.error
      ∨ ∃ leading named first rest,
          schema.PartialCut arguments leading named (first :: rest)
          ∧ bindBlocks (leading ++ named) .start = .ok halt.progress
          ∧ bindBlock schema halt.progress first rest = .error halt.error := by
  unfold bindArguments at fails
  cases walk : bindLeading schema.params arguments [] with
  | error error =>
      rw [walk] at fails
      cases fails
      exact Or.inl rfl
  | ok reached =>
      obtain ⟨bindings, rest⟩ := reached
      rw [walk] at fails
      obtain ⟨leading, others, walked, rfl, met, before, stops, bound⟩ :=
        (bindLeading_eq_ok_iff .start).1 walk
      obtain ⟨named, first, rest, rfl, owned, after, run, failed⟩ :=
        exists_blocks_of_bindNamed_eq_error fails
      refine Or.inr ⟨leading, named, first, rest,
        ⟨by simp, ⟨others, walked⟩, met, ?_, owned, consecutive_append.2 ⟨before, after⟩⟩,
        bindBlocks_append_eq_ok_iff.2 ⟨_, bound, run⟩, failed⟩
      rwa [getElem?_of_walked walked]

end ArgBinding
