import ArgBinding.Proofs.Completion
import ArgBinding.Proofs.Runs
import Mathlib.Data.List.Perm.Basic
import Mathlib.Data.Set.List

/-! The order of declarations. A run takes the leading required parameters in order, and beyond them
it only looks names up. So parameters that are not required can be declared in any order: arguments
are bound alike or fail alike, and all that differs is the order in which the defaults stand.
-/

namespace ArgBinding

open ArgBinding.Text

/-- The other schema declares what is behind some front in another order. None of it is required. -/
structure Schema.Rearranges (schema other : Schema) (front back moved : List Param) : Prop where
  params : schema.params = front ++ back
  other_params : other.params = front ++ moved
  perm : moved.Perm back
  optional : ∀ param ∈ back, param.isRequired = false

/-- Both answer every question about a name alike, and list the same contents in some order. -/
structure Bound.AnswersAs (bound other : Bound) : Prop where
  contents : bound.contents.Perm other.contents
  read : ∀ name, bound.read name = other.read name
  repetitions : ∀ name, bound.repetitions name = other.repetitions name
  copy : ∀ names, bound.copy names = other.copy names

-----------------------------------------------------------------------------------------
-- Runs that look up the same
-----------------------------------------------------------------------------------------

/-- Binding by name depends on a schema by what names mean in it, by induction on the run. -/
theorem bindNamed_congr {schema other : Schema} (same : other.find? = schema.find?)
    (progress : Progress) (arguments : List Argument)
    : bindNamed other progress arguments = bindNamed schema progress arguments := by
  have sameBlock (progress : Progress) (first : Argument) (rest : List Argument)
      : bindBlock other progress first rest = bindBlock schema progress first rest := by
    unfold bindBlock
    rw [same]
  fun_induction bindNamed schema progress arguments with
  | case1 progress => rw [bindNamed]
  | case2 progress first rest error failed => rw [bindNamed_cons, sameBlock, failed]
  | case3 progress first rest next remaining bound ih =>
      rw [bindNamed_cons, sameBlock, bound]
      exact ih

/-- The walk over the leading parameters does not come to parameters behind them that are not
required, by induction on the leading ones.
-/
theorem bindLeading_append_of_optional {back : List Param}
    (optional : ∀ param ∈ back, param.isRequired = false) (front : List Param)
    (arguments : List Argument) (bindings : List Binding)
    : bindLeading (front ++ back) arguments bindings = bindLeading front arguments bindings := by
  induction front generalizing arguments bindings with
  | nil =>
      have ended : bindLeading [] arguments bindings = .ok (bindings, arguments) :=
        bindLeading_of_stops bindings (by simp)
      rw [List.nil_append, ended]
      refine bindLeading_of_stops bindings ?_
      intro param isNext next _ required
      simp [optional param (List.mem_of_mem_head? isNext)] at required
  | cons param front ih =>
      cases param with
      | repeating group => simp only [List.cons_append, bindLeading]
      | simple param =>
          cases arguments with
          | nil => rw [bindLeading_nil, bindLeading_nil]
          | cons first rest => simp only [List.cons_append, bindLeading, ih]

/-- Only what is required can be lacking. -/
theorem firstLacking?_append_of_optional {back : List Param}
    (optional : ∀ param ∈ back, param.isRequired = false) (supplied : String → List String)
    (front : List Param)
    : firstLacking? supplied (simpleParams (front ++ back))
      = firstLacking? supplied (simpleParams front) := by
  have none : firstLacking? supplied (simpleParams back) = none := by
    refine firstLacking?_eq_none_iff.2 ?_
    intro param isBehind required
    have notRequired := optional (.simple param) (mem_simpleParams.1 isBehind)
    exact absurd required (Bool.eq_false_iff.1 notRequired)
  unfold firstLacking? at none ⊢
  rw [simpleParams_append, List.find?_append, none, Option.or_none]

-----------------------------------------------------------------------------------------
-- Rearranged schemas
-----------------------------------------------------------------------------------------

namespace Schema.Rearranges

variable {schema other : Schema} {front back moved : List Param}

theorem perm_params (rearranges : schema.Rearranges other front back moved)
    : other.params.Perm schema.params := by
  rw [rearranges.params, rearranges.other_params]
  exact rearranges.perm.append_left front

theorem moved_optional (rearranges : schema.Rearranges other front back moved)
    : ∀ param ∈ moved, param.isRequired = false :=
  fun param isMoved => rearranges.optional param (rearranges.perm.subset isMoved)

theorem find?_eq (rearranges : schema.Rearranges other front back moved)
    : other.find? = schema.find? := by
  funext name
  rw [Schema.find?, Schema.find?, lookup_index, lookup_index]
  exact find?_key_eq_of_perm rearranges.perm_params schema.keys_nodup (lower name)

theorem bindArguments_eq (rearranges : schema.Rearranges other front back moved)
    (arguments : List Argument)
    : bindArguments other arguments = bindArguments schema arguments := by
  have leading
      : bindLeading other.params arguments [] = bindLeading schema.params arguments [] := by
    rw [rearranges.params, rearranges.other_params,
      bindLeading_append_of_optional rearranges.optional,
      bindLeading_append_of_optional rearranges.moved_optional]
  unfold bindArguments
  rw [leading]
  cases bindLeading schema.params arguments [] with
  | error error => rfl
  | ok reached => exact bindNamed_congr rearranges.find?_eq _ _

theorem lacking?_eq (rearranges : schema.Rearranges other front back moved) (progress : Progress)
    : other.lacking? progress = schema.lacking? progress := by
  unfold Schema.lacking?
  rw [rearranges.params, rearranges.other_params,
    firstLacking?_append_of_optional rearranges.optional,
    firstLacking?_append_of_optional rearranges.moved_optional]

theorem values_at_eq (rearranges : schema.Rearranges other front back moved) (replacer : Replacer)
    (progress : Progress) (key : String)
    : (other.completed replacer progress).values.at key
      = (schema.completed replacer progress).values.at key := by
  have perm : (simpleParams other.params).Perm (simpleParams schema.params) :=
    rearranges.perm_params.filterMap _
  have distinct := schema.keys_nodup.sublist (simpleParams_keys_sublist schema.params)
  unfold Table.at completed
  rw [lookup_eq_of_perm (perm.map _)]
  rwa [List.map_map]

theorem repetitionsAt_eq (rearranges : schema.Rearranges other front back moved)
    (replacer : Replacer) (progress : Progress) (key : String)
    : (other.completed replacer progress).repetitionsAt key
      = (schema.completed replacer progress).repetitionsAt key := by
  have perm : (groupsAmong other.params).Perm (groupsAmong schema.params) :=
    rearranges.perm_params.filterMap _
  have distinct := schema.keys_nodup.sublist (groupsAmong_keys_sublist schema.params)
  unfold Bound.repetitionsAt completed
  rw [lookup_eq_of_perm (perm.map _)]
  rwa [List.map_map]

theorem contentsOf_eq (rearranges : schema.Rearranges other front back moved) (replacer : Replacer)
    (progress : Progress) (param : Param)
    : (other.completed replacer progress).contentsOf param
      = (schema.completed replacer progress).contentsOf param := by
  cases param with
  | simple param => rw [Bound.contentsOf, Bound.contentsOf, rearranges.values_at_eq]
  | repeating group => rw [Bound.contentsOf, Bound.contentsOf, rearranges.repetitionsAt_eq]

/-- The same run results in the same values and repetitions under every name. -/
theorem answersAs (rearranges : schema.Rearranges other front back moved) (replacer : Replacer)
    (progress : Progress)
    : (other.completed replacer progress).AnswersAs (schema.completed replacer progress) := by
  have find? : (other.completed replacer progress).find?
      = (schema.completed replacer progress).find? := by
    funext name
    rw [find?_completed, find?_completed, rearranges.find?_eq]
  have named : (other.completed replacer progress).named
      = (schema.completed replacer progress).named := by
    funext name
    rw [Bound.named, Bound.named, find?]
  have argumentsOf : (other.completed replacer progress).argumentsOf
      = (schema.completed replacer progress).argumentsOf := by
    funext param
    cases param with
    | simple param =>
        rw [Bound.argumentsOf, Bound.argumentsOf, rearranges.values_at_eq]
        rfl
    | repeating group =>
        rw [Bound.argumentsOf, Bound.argumentsOf, rearranges.repetitionsAt_eq]
  refine ⟨?_, ?_, ?_, ?_⟩
  · rw [Schema.contents_completed, Schema.contents_completed]
    simp only [rearranges.contentsOf_eq]
    exact rearranges.perm_params.map _
  · intro name
    simp only [Bound.read, find?, rearranges.values_at_eq, rearranges.repetitionsAt_eq]
    rfl
  · intro name
    simp only [Bound.repetitions, named, rearranges.repetitionsAt_eq]
  · intro names
    rw [Bound.copy, Bound.copy, named, argumentsOf]

theorem appliedDefaults_perm (rearranges : schema.Rearranges other front back moved)
    (bindings : List Binding)
    : (appliedDefaults (simpleParams other.params) bindings).Perm
        (appliedDefaults (simpleParams schema.params) bindings) :=
  (rearranges.perm_params.filterMap _).flatMap_right _

end Schema.Rearranges

-----------------------------------------------------------------------------------------
-- Calls
-----------------------------------------------------------------------------------------

/-- Declarations in another order declare a rearranged schema, if none of those moved is required.
-/
theorem Schema.exists_rearranges {front back moved : List Entry} {schema : Schema}
    (accepted : Schema.declare (front ++ back) = .ok schema)
    (optional : ∀ param, .declared param ∈ back → param.isRequired = false)
    (perm : moved.Perm back)
    : ∃ other frontParams backParams movedParams,
        Schema.declare (front ++ moved) = .ok other
        ∧ schema.Rearranges other frontParams backParams movedParams := by
  obtain ⟨frontParams, backParams, params, rfl, rfl⟩ :=
    List.map_eq_append_iff.1 (Schema.declare_eq_ok_iff.1 accepted).symm
  obtain ⟨movedParams, rfl⟩ : moved ∈ Set.range (List.map Entry.declared) := by
    rw [Set.range_list_map]
    intro entry isMoved
    obtain ⟨param, -, rfl⟩ := List.mem_map.1 (perm.subset isMoved)
    exact ⟨param, rfl⟩
  have perm : movedParams.Perm backParams :=
    (List.map_perm_map_iff fun _ _ same => Entry.declared.inj same).1 perm
  have optional : ∀ param ∈ backParams, param.isRequired = false :=
    fun param member => optional param (List.mem_map_of_mem member)
  have distinct : ((frontParams ++ movedParams).map Param.key).Nodup := by
    have before := schema.keys_nodup
    rw [params] at before
    exact ((perm.append_left frontParams).map Param.key).nodup_iff.2 before
  have ordered : (frontParams ++ movedParams).Pairwise fun earlier later =>
      later.isRequired = true → earlier.isRequired = true := by
    have before := schema.required_first
    rw [params] at before
    refine pairwise_required_append (List.pairwise_append.1 before).1 ?_
    exact fun later isMoved => optional later (perm.subset isMoved)
  refine ⟨⟨frontParams ++ movedParams, distinct, ordered⟩, frontParams, backParams, movedParams,
    ?_, params, rfl, perm, optional⟩
  rw [Schema.declare_eq_ok_iff, List.map_append]

/-- Parameters that are not required may be declared in any order. A call then fails with the same
error, or it succeeds with the same values and repetitions. The values that come from arguments are
bound in the same order, and the defaults behind them are the same up to order. Witness: one run,
completed for both schemas.
-/
theorem bind_declarations_moved {front back moved : List Entry} {schema : Schema}
    {arguments : List (Option String)} (replacer : Replacer)
    (accepted : Schema.declare (front ++ back) = .ok schema)
    (optional : ∀ param, .declared param ∈ back → param.isRequired = false)
    (perm : moved.Perm back) (notUsage : arguments ≠ [some usageRequest])
    : (bind (front ++ moved) replacer arguments).log = (bind (front ++ back) replacer arguments).log
      ∧ ((∃ e,
            (bind (front ++ back) replacer arguments).result = .error e
            ∧ (bind (front ++ moved) replacer arguments).result = .error e)
        ∨ ∃ progress bound other defaults otherDefaults,
            bindArguments schema (Argument.ofTexts arguments) = .ok progress
            ∧ (bind (front ++ back) replacer arguments).result = .ok bound
            ∧ (bind (front ++ moved) replacer arguments).result = .ok other
            ∧ other.AnswersAs bound
            ∧ bound.applied = appliedBindings progress.bindings ++ defaults
            ∧ other.applied = appliedBindings progress.bindings ++ otherDefaults
            ∧ otherDefaults.Perm defaults) := by
  obtain ⟨other, _, _, _, otherAccepted, rearranges⟩ :=
    Schema.exists_rearranges accepted optional perm
  have sameRun := rearranges.bindArguments_eq (Argument.ofTexts arguments)
  constructor
  · rw [bind_of_accepted replacer accepted notUsage,
      bind_of_accepted replacer otherAccepted notUsage]
    dsimp only [Schema.bind, logOf]
    rw [sameRun, rearranges.perm_params.length_eq]
    cases bindArguments schema (Argument.ofTexts arguments) <;> rfl
  · rw [bind_result_eq replacer accepted notUsage, bind_result_eq replacer otherAccepted notUsage,
      sameRun]
    cases bindArguments schema (Argument.ofTexts arguments) with
    | error halt => exact Or.inl ⟨_, rfl, rfl⟩
    | ok progress =>
        dsimp only
        rw [rearranges.lacking?_eq]
        cases schema.lacking? progress with
        | some param => exact Or.inl ⟨_, rfl, rfl⟩
        | none =>
            exact Or.inr ⟨progress, _, _, _, _, rfl, rfl, rfl,
              rearranges.answersAs replacer progress, rfl, rfl,
              rearranges.appliedDefaults_perm progress.bindings⟩

/-- A trade may declare its fills before its tags. -/
theorem trade_tags_moved
    : Schema.declare (Trade.entries.take 2 ++ Trade.entries.drop 2) = .ok Trade.schema
      ∧ (∀ param, .declared param ∈ Trade.entries.drop 2 → param.isRequired = false)
      ∧ (Trade.entries.drop 2).reverse.Perm (Trade.entries.drop 2)
      ∧ Trade.arguments ≠ [some usageRequest]
      ∧ ∃ bound other,
          (bind (Trade.entries.take 2 ++ Trade.entries.drop 2) id Trade.arguments).result
            = .ok bound
          ∧ (bind (Trade.entries.take 2 ++ (Trade.entries.drop 2).reverse) id
              Trade.arguments).result = .ok other
          ∧ other.AnswersAs bound := by
  have accepted : Schema.declare (Trade.entries.take 2 ++ Trade.entries.drop 2)
      = .ok Trade.schema := by
    rw [List.take_append_drop]
    exact Trade.declare_entries
  have optional : ∀ param, .declared param ∈ Trade.entries.drop 2 → param.isRequired = false := by
    intro param member
    rcases List.mem_cons.1 member with same | member
    · cases same
      rfl
    · cases List.mem_singleton.1 member
      rfl
  have notUsage : Trade.arguments ≠ [some usageRequest] := by decide
  refine ⟨accepted, optional, List.reverse_perm _, notUsage, ?_⟩
  obtain ⟨bound, isBound⟩ : ∃ bound,
      (bind (Trade.entries.take 2 ++ Trade.entries.drop 2) id Trade.arguments).result
        = .ok bound := exists_eq_ok_of_isSome (by decide +kernel)
  rcases (bind_declarations_moved id accepted optional (List.reverse_perm _) notUsage).2 with
    ⟨e, fails, -⟩ | ⟨-, bound, other, -, -, -, isBound, isOther, answers, -⟩
  · cases isBound.symm.trans fails
  · exact ⟨bound, other, isBound, isOther, answers⟩

end ArgBinding
