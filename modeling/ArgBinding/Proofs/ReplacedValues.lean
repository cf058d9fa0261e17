import ArgBinding.Proofs.CopiedNames
import ArgBinding.Replacement

/-! Replaced values. Binding never looks at the replacer: it results in what it results in without
one, to be read through the replacer. Each value that is read or copied then passes the replacer
once, in plain parameters as in the repetitions of groups.
-/

namespace ArgBinding

open ArgBinding.Text

-----------------------------------------------------------------------------------------
-- Reading through a replacer
-----------------------------------------------------------------------------------------

/-- A repetition that is read through a replacer. -/
def Repetition.through (replacer : Replacer) (repetition : Repetition) : Repetition :=
  { repetition with replacer := replacer }

/-- Bound values that are read through a replacer, the repetitions of groups included. -/
def Bound.through (replacer : Replacer) (bound : Bound) : Bound :=
  {
    bound with
    groups := bound.groups.map fun (key, repetitions) =>
      (key, repetitions.map (Repetition.through replacer))
    replacer := replacer
  }

/-- Both hold the same values and repetitions, and answer alike what is told without reading a
value.
-/
structure Bound.HoldsAs (bound other : Bound) : Prop where
  contents : bound.contents = other.contents
  applied : bound.applied = other.applied
  hasValue : ∀ name, (bound.read name).hasValue = (other.read name).hasValue
  count
    : ∀ name,
        (bound.repetitions name).map List.length = (other.repetitions name).map List.length

section Through

variable (replacer : Replacer) (bound : Bound)

theorem find?_through : (bound.through replacer).find? = bound.find? := rfl

theorem repetitionsAt_through (key : String)
    : (bound.through replacer).repetitionsAt key
      = (bound.repetitionsAt key).map (Repetition.through replacer) := by
  unfold Bound.repetitionsAt Bound.through
  dsimp only
  rw [lookup_map_snd]
  cases bound.groups.lookup key <;> rfl

theorem contentsOf_through (param : Param)
    : (bound.through replacer).contentsOf param = bound.contentsOf param := by
  cases param with
  | simple param => rfl
  | repeating group =>
      rw [Bound.contentsOf, Bound.contentsOf, repetitionsAt_through, List.map_map]
      rfl

theorem contents_through : (bound.through replacer).contents = bound.contents := by
  unfold Bound.contents
  simp only [contentsOf_through]
  rfl

theorem repetitions_through (name : Option String)
    : (bound.through replacer).repetitions name
      = (bound.repetitions name).map (·.map (Repetition.through replacer)) := by
  unfold Bound.repetitions Bound.named
  rw [find?_through]
  cases name.bind bound.find? with
  | none => rfl
  | some param =>
      cases param with
      | simple param => rfl
      | repeating group => exact congrArg Except.ok (repetitionsAt_through replacer bound group.key)

theorem hasValue_read_through (name : Option String)
    : ((bound.through replacer).read name).hasValue = (bound.read name).hasValue := by
  unfold Bound.read
  rw [find?_through]
  cases name.bind bound.find? with
  | none => rfl
  | some param =>
      cases param with
      | simple param => rfl
      | repeating group =>
          dsimp only
          rw [repetitionsAt_through, List.isEmpty_map]

theorem holdsAs_through : (bound.through replacer).HoldsAs bound := by
  refine ⟨contents_through replacer bound, rfl, hasValue_read_through replacer bound, ?_⟩
  intro name
  rw [repetitions_through]
  cases bound.repetitions name with
  | error e => rfl
  | ok repetitions => exact congrArg Except.ok (List.length_map (Repetition.through replacer))

end Through

theorem completed_eq_through (schema : Schema) (replacer : Replacer) (progress : Progress)
    : schema.completed replacer progress = (schema.completed id progress).through replacer := by
  have repetitions (group : Group)
      : repetitionsOf replacer progress.repetitions group
        = (repetitionsOf id progress.repetitions group).map (Repetition.through replacer) := by
    unfold repetitionsOf
    rw [List.map_filterMap]
    refine List.filterMap_congr ?_
    intro repetition _
    by_cases own : repetition.1.key = group.key <;> simp [own, Repetition.through]
  unfold Schema.completed Bound.through
  simp only [repetitions, List.map_map]
  rfl

-----------------------------------------------------------------------------------------
-- What is read
-----------------------------------------------------------------------------------------

/-- The reading answers with some values after replacement. A single value is the only one. -/
structure Reading.Answers (reading : Reading) (replacer : Replacer) (held : List String)
    : Prop where
  values : reading.values = .ok (held.map replacer)
  value : ∀ single, reading.value = .ok single → single.toList = held.map replacer

theorem Simple.answers_reading {param : Simple} {values : List String} (replacer : Replacer)
    (name : Option String) (few : param.allowMultiple = false → values.length ≤ 1)
    : (param.reading replacer name values).Answers replacer values := by
  refine ⟨rfl, ?_⟩
  intro single isSingle
  obtain ⟨value?, isValue, rfl⟩ := except_map_eq_ok_iff.1 isSingle
  unfold Simple.single at isValue
  split at isValue
  · cases isValue
  · rename_i alone
    have few := few (Bool.eq_false_iff.2 alone)
    cases isValue
    rcases values with _ | ⟨value, _ | ⟨next, rest⟩⟩
    · rfl
    · rfl
    · simp at few

/-- What a parameter is bound to as arguments, when each value passes a replacer. -/
def Contents.arguments (replacer : Replacer) (name : String) : Contents → List String
  | .plain values => values.map fun value => Argument.render name (replacer value)
  | .repeated tables =>
      tables.flatMap fun table =>
        table.flatMap fun (member, values) =>
          values.map fun value => Argument.render member (replacer value)

/-- What is read and copied of declared parameters are the values in the contents, each of them
replaced once: those of plain parameters, and in each repetition of a group those of its members.
-/
structure Bound.ReadsThrough (bound : Bound) (replacer : Replacer) (params : List Param)
    : Prop where
  plain
    : ∀ param,
        .simple param ∈ params
        → ∃ values,
            bound.contents.lookup param.name = some (.plain values)
            ∧ ∀ name,
                lower name = param.key → (bound.read (some name)).Answers replacer values
  repeated
    : ∀ group,
        .repeating group ∈ params
        → ∃ repetitions,
            bound.contents.lookup group.name
              = some (.repeated (repetitions.map Repetition.contents))
            ∧ (∀ name, lower name = group.key → bound.repetitions (some name) = .ok repetitions)
            ∧ ∀ repetition ∈ repetitions,
                ∀ member ∈ group.params,
                  ∃ values,
                    repetition.contents.lookup member.name = some values
                    ∧ ∀ name,
                        lower name = member.key
                        → (repetition.read (some name)).Answers replacer values
  copied
    : ∀ names,
        bound.copy names
        = ((names.eraseDupsBy repeatsName).mapM bound.named).map fun params =>
            params.flatMap fun param => (bound.contentsOf param).arguments replacer param.name

theorem argumentsOf_through (replacer : Replacer) (bound : Bound) (param : Param)
    : (bound.through replacer).argumentsOf param
      = ((bound.through replacer).contentsOf param).arguments replacer param.name := by
  cases param with
  | simple param => rfl
  | repeating group =>
      rw [Bound.argumentsOf, Bound.contentsOf, repetitionsAt_through, Contents.arguments,
        List.map_map, List.flatMap_map, List.flatMap_map]
      refine List.flatMap_congr ?_
      intro repetition _
      unfold Function.comp Repetition.arguments Repetition.contents Repetition.through
      rw [List.flatMap_map]

theorem copy_through (replacer : Replacer) (bound : Bound) (names : List (Option String))
    : (bound.through replacer).copy names
      = ((names.eraseDupsBy repeatsName).mapM (bound.through replacer).named).map fun params =>
          params.flatMap fun param =>
            ((bound.through replacer).contentsOf param).arguments replacer param.name := by
  rw [Bound.copy_eq, funext (argumentsOf_through replacer bound)]

-----------------------------------------------------------------------------------------
-- Admitted blocks
-----------------------------------------------------------------------------------------

theorem Simple.length_orDefault_le {param : Simple} {supplied : List String}
    (few : supplied.length ≤ 1)
    : (param.orDefault supplied).length ≤ 1 := by
  unfold orDefault
  split
  · cases param.default? <;> simp
  · exact few

section Admitted

variable {schema : Schema} {blocks : List Block}

/-- A plain parameter of a single value has at most one after admitted blocks. -/
theorem Schema.Admits.length_plain_le {param : Simple} (admitted : schema.Admits blocks)
    (declared : ∀ block ∈ blocks, block.param ∈ schema.params)
    (shaped : ∀ block ∈ blocks, block.Shaped) (isDeclared : .simple param ∈ schema.params)
    (single : param.allowMultiple = false)
    : (param.orDefault (assignedValues param.key (plainAssignments blocks))).length ≤ 1 := by
  refine Simple.length_orDefault_le (length_assignedValues_le single ?_ ?_ ?_)
  · exact fun x => eq_of_mem_plainAssignments declared isDeclared
  · exact fun x => allows_of_mem_plainAssignments admitted.allowed
  · exact (pairwise_plainAssignments_iff declared shaped).2 admitted.once

/-- A member of a single value has at most one in a repetition. -/
theorem Block.length_at_table_le {block : Block} {group : Group} {member : Simple}
    (allowed : block.Allowed) (shaped : block.Shaped) (isGroup : block.param = .repeating group)
    (isMember : member ∈ group.params) (single : member.allowMultiple = false)
    : ((block.table group).at member.key).length ≤ 1 := by
  rw [Block.at_table isMember]
  refine Simple.length_orDefault_le (length_assignedValues_le single ?_ allowed ?_)
  · exact fun x => Block.eq_of_mem_assignments isGroup isMember
  · obtain ⟨param, first, following⟩ := block
    cases isGroup
    exact Group.pairwise_filterMap_assignment? shaped.2

/-- A member is read in a repetition as it stands in the contents. -/
theorem Repetition.answers_read {repetition : Repetition} {member : Simple} {name : String}
    (isMember : member ∈ repetition.group.params)
    (few : member.allowMultiple = false → (repetition.values.at member.key).length ≤ 1)
    (key : lower name = member.key)
    : (repetition.read (some name)).Answers repetition.replacer
        (repetition.values.at member.key) := by
  rw [read_of_key isMember key]
  exact Simple.answers_reading repetition.replacer (some name) few

/-- Values bound by admitted blocks are read through a replacer as they stand in the contents. -/
theorem Schema.Admits.readsThrough (admitted : schema.Admits blocks)
    (declared : ∀ block ∈ blocks, block.param ∈ schema.params)
    (shaped : ∀ block ∈ blocks, block.Shaped) (replacer : Replacer)
    : ((schema.completed id (progressOf blocks)).through replacer).ReadsThrough replacer
        schema.params := by
  rw [← completed_eq_through]
  refine ⟨?_, ?_, ?_⟩
  · intro param isDeclared
    refine ⟨_, Schema.lookup_contents_completed isDeclared, ?_⟩
    intro name key
    rw [Schema.read_completed isDeclared key]
    refine Simple.answers_reading replacer (some name) ?_
    rw [Schema.values_at_completed isDeclared]
    simp only [progressOf, boundValues_bindingsOf]
    exact admitted.length_plain_le declared shaped isDeclared
  · intro group isDeclared
    refine ⟨_, Schema.lookup_contents_completed isDeclared, ?_, ?_⟩
    · exact fun name key => Schema.repetitions_completed isDeclared key
    · intro repetition isRepetition member isMember
      obtain ⟨block, isBlock, isGroup, rfl⟩ :=
        (mem_repetitionsAt_completed declared isDeclared).1 isRepetition
      refine ⟨_, Repetition.lookup_contents isMember, ?_⟩
      intro name key
      refine Repetition.answers_read isMember ?_ key
      exact Block.length_at_table_le (admitted.allowed block isBlock) (shaped block isBlock) isGroup
        isMember
  · intro names
    rw [completed_eq_through]
    exact copy_through replacer _ names

end Admitted

-----------------------------------------------------------------------------------------
-- Calls
-----------------------------------------------------------------------------------------

/-- A call with a replacer results in what it results in without one, read through the replacer. -/
theorem bind_result_eq_through (entries : List Entry) (replacer : Replacer)
    (arguments : List (Option String))
    : (bind entries replacer arguments).result
      = (bind entries id arguments).result.map (Bound.through replacer) := by
  unfold bind
  dsimp only [Option.getD_some]
  split
  · rfl
  · cases Schema.declare entries with
    | error cause => rfl
    | ok schema =>
        dsimp only [Schema.bind]
        cases bindArguments schema (Argument.ofTexts arguments) with
        | error halt => rfl
        | ok progress =>
            simp only [complete_eq, completed_eq_through schema replacer]
            cases schema.lacking? progress <;> rfl

theorem effectiveReplacer_eq (general call : Option Replacer)
    : effectiveReplacer general call = call.getD (general.getD id) := by
  cases call <;> rfl

theorem declaredParams_of_accepted {entries : List Entry} {schema : Schema}
    (accepted : Schema.declare entries = .ok schema)
    : declaredParams entries = schema.params := by
  rw [Schema.declare_eq_ok_iff.1 accepted, declaredParams, List.filterMap_map]
  exact List.filterMap_some

/-- A call fails alike with and without replacers, or it succeeds with the same values and
repetitions. Every value that is read or copied then passes one replacer once: that of the call, or
that of all calls where the call has none. Witness: the result without replacers, read through the
one that applies.
-/
theorem bind_replaced (entries : List Entry) (arguments : List (Option String))
    (general call : Option Replacer)
    : (∃ e,
        (bind entries (effectiveReplacer general call) arguments).result = .error e
        ∧ (bind entries (effectiveReplacer none none) arguments).result = .error e)
      ∨ ∃ bound plain,
          (bind entries (effectiveReplacer general call) arguments).result = .ok bound
          ∧ (bind entries (effectiveReplacer none none) arguments).result = .ok plain
          ∧ bound.HoldsAs plain
          ∧ bound.ReadsThrough (call.getD (general.getD id)) (declaredParams entries) := by
  rw [← effectiveReplacer_eq, bind_result_eq_through entries (effectiveReplacer general call)]
  have withoutReplacers : effectiveReplacer none none = id := rfl
  rw [withoutReplacers]
  cases isPlain : (bind entries id arguments).result with
  | error e => exact Or.inl ⟨e, rfl, rfl⟩
  | ok plain =>
      obtain ⟨-, schema, -, accepted, -⟩ := bind_result_eq_ok_iff.1 isPlain
      obtain ⟨-, leading, named, cut, admitted, rfl⟩ :=
        (bind_result_eq_ok_iff_cut accepted).1 isPlain
      refine Or.inr ⟨_, _, rfl, rfl, holdsAs_through _ _, ?_⟩
      rw [declaredParams_of_accepted accepted]
      exact admitted.readsThrough cut.declared cut.shaped (effectiveReplacer general call)

/-- The fills of a trade are copied through the replacer of all calls, defaults included, although
the call has none.
-/
theorem trade_replaced
    : ∃ bound plain,
        (bind Trade.entries (effectiveReplacer (some (Replacer.wrap "<" ">")) none)
            Trade.arguments).result
          = .ok bound
        ∧ (bind Trade.entries (effectiveReplacer none none) Trade.arguments).result = .ok plain
        ∧ bound.HoldsAs plain
        ∧ bound.ReadsThrough (Replacer.wrap "<" ">") (declaredParams Trade.entries)
        ∧ bound.copy [some "FILL", some "tags", some "fill"]
          = .ok ["fill: <1>", "price: <2>", "fill: <3>", "price: <0>", "tags: <a>", "tags: <b>",
              "tags: <c>"] := by
  obtain ⟨held, isHeld, copied⟩ : ∃ held,
      (bind Trade.entries (effectiveReplacer (some (Replacer.wrap "<" ">")) none)
          Trade.arguments).result
        = .ok held
      ∧ (held.copy [some "FILL", some "tags", some "fill"]).toOption
        = some ["fill: <1>", "price: <2>", "fill: <3>", "price: <0>", "tags: <a>", "tags: <b>",
            "tags: <c>"] :=
    exists_eq_ok_of_map_toOption (by decide +kernel)
  rcases bind_replaced Trade.entries Trade.arguments (some (Replacer.wrap "<" ">")) none with
    ⟨e, fails, -⟩ | ⟨bound, plain, isBound, isPlain, holds, reads⟩
  · cases isHeld.symm.trans fails
  · cases isHeld.symm.trans isBound
    refine ⟨held, plain, isHeld, isPlain, holds, reads, ?_⟩
    cases isCopy : held.copy [some "FILL", some "tags", some "fill"] with
    | error e => simp [isCopy, Except.toOption] at copied
    | ok texts =>
        rw [isCopy] at copied
        exact congrArg Except.ok (Option.some.inj copied)

end ArgBinding
