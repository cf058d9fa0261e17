import ArgBinding.Proofs.Contents
import ArgBinding.Proofs.Rendering

/-! The grammar of bindings. Arguments are accepted exactly when they can be cut into blocks, those
of the leading required parameters first and then blocks that start with a name, such that the
schema admits the blocks; and what is bound is what stands in the blocks.
-/

namespace ArgBinding

open ArgBinding.Text

namespace Schema.Cut

variable {schema : Schema} {arguments : List Argument} {leading named : List Block}

theorem declared (cut : schema.Cut arguments leading named)
    : ∀ block ∈ leading ++ named, block.param ∈ schema.params :=
  cut.partialCut.declared

theorem shaped (cut : schema.Cut arguments leading named)
    : ∀ block ∈ leading ++ named, block.Shaped :=
  cut.consecutive.shaped

/-- The first argument of a block fits its parameter. -/
theorem fits_first {block : Block} (cut : schema.Cut arguments leading named)
    (member : block ∈ leading ++ named)
    : block.first.Fits block.param.key := by
  rcases List.mem_append.1 member with isLeading | isNamed
  · exact (cut.met block isLeading).2
  · exact Or.inr (cut.owned block isNamed).2

/-- All arguments of a block fit the plain parameter to which they go. -/
theorem fits {block : Block} {param : Simple} (cut : schema.Cut arguments leading named)
    (member : block ∈ leading ++ named) (isParam : block.param = .simple param)
    : ∀ argument ∈ block.arguments, argument.Fits param.key := by
  have first := cut.fits_first member
  have shaped := cut.shaped block member
  obtain ⟨_, start, following⟩ := block
  cases isParam
  exact List.forall_mem_cons.2 ⟨first, fun argument isFollowing => (shaped argument isFollowing).2⟩

/-- A repetition starts with an argument that names its group, as no leading parameter is a group.
-/
theorem names_of_repeating {block : Block} {group : Group}
    (cut : schema.Cut arguments leading named) (member : block ∈ leading ++ named)
    (isGroup : block.param = .repeating group)
    : block.first.Names group.key := by
  rcases List.mem_append.1 member with isLeading | isNamed
  · have required := (cut.met block isLeading).1
    simp [isGroup, Param.isRequired] at required
  · have names := (cut.owned block isNamed).2
    rwa [isGroup] at names

/-- The values of the arguments in a cut are trimmed, as each is read from a text. -/
theorem trimmed {texts : List (Option String)}
    (cut : schema.Cut (Argument.ofTexts texts) leading named)
    : ∀ block ∈ leading ++ named, ∀ argument ∈ block.arguments, Trimmed argument.value := by
  intro block isBlock argument isArgument
  have given : argument ∈ Argument.ofTexts texts := by
    rw [← cut.whole]
    exact List.mem_flatMap.2 ⟨block, isBlock, isArgument⟩
  obtain ⟨text, -, same⟩ := List.mem_filterMap.1 given
  obtain ⟨text, -, rfl⟩ := Option.map_eq_some_iff.1 same
  exact Argument.trimmed_value text

end Schema.Cut

/-- A call succeeds exactly with what is in the blocks of a cut that the schema admits. -/
theorem bind_result_eq_ok_iff_cut {entries : List Entry} {schema : Schema} {replacer : Replacer}
    {arguments : List (Option String)} {bound : Bound}
    (accepted : Schema.declare entries = .ok schema)
    : (bind entries replacer arguments).result = .ok bound
      ↔ arguments ≠ [some usageRequest]
        ∧ ∃ leading named,
            schema.Cut (Argument.ofTexts arguments) leading named
            ∧ schema.Admits (leading ++ named)
            ∧ bound = schema.completed replacer (progressOf (leading ++ named)) := by
  rw [bind_result_eq_ok_iff]
  refine and_congr_right fun _ => ?_
  constructor
  · intro h
    rcases h with ⟨declared, progress, accepted', run, done⟩
    obtain rfl := Except.ok.inj (accepted'.symm.trans accepted)
    obtain ⟨leading, named, cut, run⟩ := bindArguments_eq_ok_iff.1 run
    exact ⟨leading, named, cut,
      (bindBlocks_and_complete_eq_ok_iff cut.declared cut.shaped).1 ⟨progress, run, done⟩⟩
  · intro h
    rcases h with ⟨leading, named, cut, admitted⟩
    obtain ⟨progress, run, done⟩ :=
      (bindBlocks_and_complete_eq_ok_iff cut.declared cut.shaped).2 admitted
    exact ⟨schema, progress, accepted, bindArguments_eq_ok_iff.2 ⟨leading, named, cut, run⟩, done⟩

/-- Arguments that do not ask for the help are bound to accepted declarations exactly when they can
be cut into blocks that the schema admits, and every such cut tells what all parameters have.
Witness: the run as a cut into blocks, and binding the blocks of a cut.
-/
theorem bind_succeeds_iff_cut {entries : List Entry} {schema : Schema}
    {arguments : List (Option String)} (replacer : Replacer)
    (accepted : Schema.declare entries = .ok schema) (notUsage : arguments ≠ [some usageRequest])
    : ((∃ bound, (bind entries replacer arguments).result = .ok bound)
        ↔ ∃ leading named,
            schema.Cut (Argument.ofTexts arguments) leading named
            ∧ schema.Admits (leading ++ named))
      ∧ ∀ bound leading named,
          (bind entries replacer arguments).result = .ok bound
          → schema.Cut (Argument.ofTexts arguments) leading named
          → schema.Admits (leading ++ named)
          → ∀ param ∈ schema.params,
              bound.contentsOf param = contentsIn (leading ++ named) param := by
  have success {bound : Bound}
      : (bind entries replacer arguments).result = .ok bound
        ↔ ∃ leading named,
            schema.Cut (Argument.ofTexts arguments) leading named
            ∧ schema.Admits (leading ++ named)
            ∧ bound = schema.completed replacer (progressOf (leading ++ named)) := by
    rw [bind_result_eq_ok_iff_cut accepted, and_iff_right notUsage]
  refine ⟨⟨?_, ?_⟩, ?_⟩
  · intro h
    rcases h with ⟨bound, bound_ok⟩
    obtain ⟨leading, named, cut, admitted, -⟩ := success.1 bound_ok
    exact ⟨leading, named, cut, admitted⟩
  · intro h
    rcases h with ⟨leading, named, cut, admitted⟩
    exact ⟨_, success.2 ⟨leading, named, cut, admitted, rfl⟩⟩
  · intro bound leading named bound_ok cut admitted param isDeclared
    have same := Except.ok.inj
      (bound_ok.symm.trans (success.2 ⟨leading, named, cut, admitted, rfl⟩))
    rw [same]
    exact contentsOf_completed cut.declared isDeclared

/-- A trade with a positional account, tags in two arguments and two fills is cut into blocks. -/
theorem trade_cut
    : Schema.declare Trade.entries = .ok Trade.schema
      ∧ Trade.arguments ≠ [some usageRequest]
      ∧ ∃ leading named,
          Trade.schema.Cut (Argument.ofTexts Trade.arguments) leading named
          ∧ Trade.schema.Admits (leading ++ named) := by
  have isBound : (bind Trade.entries id Trade.arguments).result.toOption.isSome = true := by
    decide +kernel
  refine ⟨Trade.declare_entries, by decide, ?_⟩
  exact (bind_succeeds_iff_cut id Trade.declare_entries (by decide)).1.1
    (exists_eq_ok_of_isSome isBound)

end ArgBinding
