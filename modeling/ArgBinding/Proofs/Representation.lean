import ArgBinding.Proofs.ReplacedValues

/-! What a result holds. Each declared parameter stands under its name in the order of declaration,
with no more values than it takes and no fewer than it needs, and so does each parameter of a group
in every repetition. A value that is read is missing only where a parameter of a single value is
optional and has no default.
-/

namespace ArgBinding

open ArgBinding.Text

-----------------------------------------------------------------------------------------
-- As many values as a parameter takes and needs
-----------------------------------------------------------------------------------------

namespace Simple

variable {param : Simple} {values : List String}

/-- A value is there in any case: it must be supplied, or a default stands in for it. -/
def Certain (param : Simple) : Prop :=
  param.isRequired = true ∨ param.default?.isSome = true

/-- The values are as many as the parameter takes and needs: at most one for a parameter of a single
value, and at least one where a value is there in any case.
-/
structure Bounds (param : Simple) (values : List String) : Prop where
  few : param.allowMultiple = false → values.length ≤ 1
  certain : param.Certain → values ≠ []

theorem presence_of_not_certain (uncertain : ¬ param.Certain)
    : param.presence = .optional none := by
  cases present : param.presence with
  | required => exact absurd (Or.inl (by simp [isRequired, present])) uncertain
  | optional default =>
      cases default with
      | none => rfl
      | some value => exact absurd (Or.inr (by simp [default?, present])) uncertain

theorem orDefault_ne_nil {supplied : List String}
    (filled : param.isRequired = true → supplied ≠ []) (certain : param.Certain)
    : param.orDefault supplied ≠ [] := by
  unfold orDefault
  split
  · rename_i unbound
    rcases certain with required | hasDefault
    · exact absurd unbound (filled required)
    · obtain ⟨default, isDefault⟩ := Option.isSome_iff_exists.1 hasDefault
      simp [isDefault]
  · assumption

theorem Bounds.exists_eq (bounds : param.Bounds values) (single : param.allowMultiple = false)
    (certain : param.Certain)
    : ∃ value, values = [value] := by
  have few := bounds.few single
  have present := List.length_pos_iff.2 (bounds.certain certain)
  exact List.length_eq_one_iff.1 (by omega)

end Simple

-----------------------------------------------------------------------------------------
-- Readings without a value
-----------------------------------------------------------------------------------------

namespace Reading

variable {reading : Reading}

/-- A number is asked for and refused as no value is supplied. -/
def LacksNumber (reading : Reading) : Prop :=
  ∃ name,
    reading.integer = .error (.noValue name)
    ∨ reading.binary64 = .error (.noValue name)
    ∨ reading.decimal = .error (.noValue name)
    ∨ reading.integer? = .error (.noValue name)
    ∨ reading.binary64? = .error (.noValue name)

section Converted

variable {α : Type} {convert : String → Except ReadError α} {name : Option String}

theorem value_of_converted (converts : FailsByValue convert)
    (known : ∀ other, reading.value ≠ .error (.noValue other))
    (lacks : reading.converted convert = .error (.noValue name))
    : reading.value = .ok none := by
  unfold converted at lacks
  cases value : reading.value with
  | error e =>
      simp only [value, Except.error.injEq] at lacks
      exact absurd (lacks ▸ value) (known name)
  | ok text? =>
      cases text? with
      | none => rfl
      | some text =>
          simp only [value] at lacks
          cases converts text _ lacks

theorem value_of_convertedIfPresent (converts : FailsByValue convert)
    (known : ∀ other, reading.value ≠ .error (.noValue other))
    (told : ∀ other, reading.hasValue ≠ .error (.noValue other))
    (lacks : reading.convertedIfPresent convert = .error (.noValue name))
    : reading.value = .ok none := by
  unfold convertedIfPresent at lacks
  cases hasValue : reading.hasValue with
  | error e =>
      simp only [hasValue, Except.error.injEq] at lacks
      exact absurd (lacks ▸ hasValue) (told name)
  | ok present =>
      cases present with
      | false => simp [hasValue] at lacks
      | true =>
          simp only [hasValue, except_map_eq_error_iff] at lacks
          exact value_of_converted converts known lacks

end Converted

/-- A number is refused only where there is no single value, as no conversion asks for one. -/
theorem value_of_lacksNumber (known : ∀ name, reading.value ≠ .error (.noValue name))
    (told : ∀ name, reading.hasValue ≠ .error (.noValue name)) (lacks : reading.LacksNumber)
    : reading.value = .ok none := by
  obtain ⟨name, integer | binary64 | decimal | integer? | binary64?⟩ := lacks
  · exact value_of_converted failsByValue_integerOf known integer
  · exact value_of_converted failsByValue_binary64Of known binary64
  · exact value_of_converted failsByValue_decimalOf known decimal
  · exact value_of_convertedIfPresent failsByValue_integerOf known told integer?
  · exact value_of_convertedIfPresent failsByValue_binary64Of known told binary64?

end Reading

/-- A number is refused for want of a value only under the name of a parameter of a single value
that is optional and has no default.
-/
def LacksOnlyOptional (params : List Simple) (read : Option String → Reading) : Prop :=
  ∀ name,
    (read name).LacksNumber
    → ∃ text param,
        name = some text
        ∧ param ∈ params
        ∧ lower text = param.key
        ∧ param.allowMultiple = false
        ∧ param.presence = .optional none

/-- A parameter holds as many values as it takes and needs. Its name, in any case, tells whether
there are any, and gives a single value that is there in any case.
-/
structure Simple.Holds (param : Simple) (values : List String) (read : Option String → Reading)
    : Prop where
  bounds : param.Bounds values
  hasValue
    : ∀ name, lower name = param.key → (read (some name)).hasValue = .ok (!values.isEmpty)
  value
    : ∀ name,
        lower name = param.key
        → param.allowMultiple = false
        → param.Certain
        → ∃ text, (read (some name)).value = .ok (some text)

section Readings

variable {param : Simple} {values : List String} {read : Option String → Reading}

theorem Simple.Bounds.holds (replacer : Replacer) (bounds : param.Bounds values)
    (reads
      : ∀ name,
          lower name = param.key
          → read (some name) = param.reading replacer (some name) values)
    : param.Holds values read := by
  refine ⟨bounds, ?_, ?_⟩
  · intro name key
    rw [reads name key]
    rfl
  · intro name key single certain
    obtain ⟨value, rfl⟩ := bounds.exists_eq single certain
    refine ⟨replacer value, ?_⟩
    rw [reads name key, reading, Simple.single, single]
    rfl

/-- A parameter whose reading lacks a value is one of a single value without a default. -/
theorem Simple.Bounds.optional_of_lacksNumber {replacer : Replacer} {name : Option String}
    (bounds : param.Bounds values) (lacks : (param.reading replacer name values).LacksNumber)
    : param.allowMultiple = false ∧ param.presence = .optional none := by
  have value := Reading.value_of_lacksNumber (by
    intro other isError
    rw [reading, except_map_eq_error_iff, Simple.single] at isError
    split at isError <;> cases isError) (by simp [reading]) lacks
  obtain ⟨single?, isSingle, none⟩ := except_map_eq_ok_iff.1 value
  unfold Simple.single at isSingle
  split at isSingle
  · cases isSingle
  · rename_i single
    cases isSingle
    have empty : values = [] := by simpa using none
    exact ⟨Bool.eq_false_iff.2 single,
      presence_of_not_certain fun certain => bounds.certain certain empty⟩

end Readings

-----------------------------------------------------------------------------------------
-- Repetitions
-----------------------------------------------------------------------------------------

/-- A repetition lists the parameters of its group by name, each of which holds what it takes and
needs. The identity has exactly one value.
-/
structure Repetition.Represents (repetition : Repetition) (group : Group) : Prop where
  names : repetition.contents.map Prod.fst = group.params.map Simple.name
  members
    : ∀ member ∈ group.params,
        ∃ values,
          repetition.contents.lookup member.name = some values
          ∧ member.Holds values repetition.read
  identity : ∃ value, repetition.contents.lookup group.name = some [value]
  lacks : LacksOnlyOptional group.params repetition.read

/-- The values of a filled block are as many as each member takes and needs. -/
theorem Block.bounds_at_table {block : Block} {group : Group} {member : Simple}
    (allowed : block.Allowed) (filled : block.Filled) (shaped : block.Shaped)
    (isGroup : block.param = .repeating group) (isMember : member ∈ group.params)
    : member.Bounds ((block.table group).at member.key) := by
  refine ⟨Block.length_at_table_le allowed shaped isGroup isMember, ?_⟩
  rw [Block.at_table isMember]
  refine Simple.orDefault_ne_nil ?_
  unfold Filled at filled
  rw [isGroup] at filled
  exact filled member isMember

/-- The repetition that a filled block makes holds what its group takes and needs. -/
theorem Block.represents {block : Block} {group : Group} (replacer : Replacer)
    (allowed : block.Allowed) (filled : block.Filled) (shaped : block.Shaped)
    (isGroup : block.param = .repeating group)
    : (Repetition.mk group (block.table group) replacer).Represents group := by
  have bounds {member : Simple} (isMember : member ∈ group.params) :=
    Block.bounds_at_table allowed filled shaped isGroup isMember
  have isIdentity : group.identity ∈ group.params := by simp [Group.params]
  refine ⟨?_, ?_, ?_, ?_⟩
  · rw [Repetition.contents, List.map_map]
    rfl
  · intro member isMember
    exact ⟨_, Repetition.lookup_contents isMember,
      (bounds isMember).holds replacer fun name => Repetition.read_of_key isMember⟩
  · obtain ⟨value, only⟩ :=
      (bounds isIdentity).exists_eq group.identity_single (Or.inl group.identity_required)
    exact ⟨value, only ▸ Repetition.lookup_contents isIdentity⟩
  · intro name lacks
    unfold Repetition.read at lacks
    cases found : group.find? name with
    | none =>
        rw [found] at lacks
        cases Reading.value_of_lacksNumber (by simp) (by simp) lacks
    | some member =>
        rw [found] at lacks
        cases name with
        | none => cases found
        | some text =>
            obtain ⟨isMember, key⟩ := Group.key_of_find? found
            exact ⟨text, member, rfl, isMember, key.symm,
              (bounds isMember).optional_of_lacksNumber lacks⟩

-----------------------------------------------------------------------------------------
-- Results
-----------------------------------------------------------------------------------------

/-- A result lists the parameters of its schema by name in the order of declaration. Plain ones hold
what they take and need, and so does each repetition of a group.
-/
structure Bound.Represents (bound : Bound) (schema : Schema) : Prop where
  names : bound.contents.map Prod.fst = schema.params.map Param.name
  plain
    : ∀ param,
        .simple param ∈ schema.params
        → ∃ values,
            bound.contents.lookup param.name = some (.plain values)
            ∧ param.Holds values bound.read
  repeated
    : ∀ group,
        .repeating group ∈ schema.params
        → ∃ repetitions,
            bound.contents.lookup group.name
              = some (.repeated (repetitions.map Repetition.contents))
            ∧ (∀ name,
                lower name = group.key
                → bound.repetitions (some name) = .ok repetitions
                  ∧ (bound.read (some name)).hasValue = .ok (!repetitions.isEmpty))
            ∧ ∀ repetition ∈ repetitions, repetition.Represents group
  lacks : LacksOnlyOptional (simpleParams schema.params) bound.read

/-- The values of a plain parameter after admitted blocks are as many as it takes and needs. -/
theorem Schema.Admits.bounds_at_completed {schema : Schema} {blocks : List Block} {param : Simple}
    (replacer : Replacer) (admitted : schema.Admits blocks)
    (declared : ∀ block ∈ blocks, block.param ∈ schema.params)
    (shaped : ∀ block ∈ blocks, block.Shaped) (isDeclared : .simple param ∈ schema.params)
    : param.Bounds ((schema.completed replacer (progressOf blocks)).values.at param.key) := by
  rw [Schema.values_at_completed isDeclared]
  simp only [progressOf, boundValues_bindingsOf]
  exact ⟨admitted.length_plain_le declared shaped isDeclared,
    Simple.orDefault_ne_nil (admitted.supplied param isDeclared)⟩

/-- What admitted blocks result in holds what the schema takes and needs. -/
theorem Schema.Admits.represents {schema : Schema} {blocks : List Block} (replacer : Replacer)
    (admitted : schema.Admits blocks) (declared : ∀ block ∈ blocks, block.param ∈ schema.params)
    (shaped : ∀ block ∈ blocks, block.Shaped)
    : (schema.completed replacer (progressOf blocks)).Represents schema := by
  have bounds {param : Simple} (isDeclared : .simple param ∈ schema.params) :=
    admitted.bounds_at_completed replacer declared shaped isDeclared
  refine ⟨?_, ?_, ?_, ?_⟩
  · rw [Schema.contents_completed, List.map_map]
    rfl
  · intro param isDeclared
    exact ⟨_, Schema.lookup_contents_completed isDeclared,
      (bounds isDeclared).holds replacer fun name => Schema.read_completed isDeclared⟩
  · intro group isDeclared
    refine ⟨_, Schema.lookup_contents_completed isDeclared, ?_, ?_⟩
    · intro name key
      refine ⟨Schema.repetitions_completed isDeclared key, ?_⟩
      unfold Bound.read
      rw [Option.bind_some, Schema.find?_completed_of_key isDeclared key]
    · intro repetition isRepetition
      obtain ⟨block, isBlock, isGroup, rfl⟩ :=
        (mem_repetitionsAt_completed declared isDeclared).1 isRepetition
      exact Block.represents replacer (admitted.allowed block isBlock)
        (admitted.filled block isBlock) (shaped block isBlock) isGroup
  · intro name lacks
    unfold Bound.read at lacks
    cases name with
    | none => cases Reading.value_of_lacksNumber (by simp) (by simp) lacks
    | some text =>
        rw [Option.bind_some, Schema.find?_completed] at lacks
        cases found : schema.find? text with
        | none =>
            rw [found] at lacks
            cases Reading.value_of_lacksNumber (by simp) (by simp) lacks
        | some param =>
            rw [found] at lacks
            obtain ⟨isDeclared, key⟩ := Schema.key_of_find? found
            cases param with
            | repeating group => cases Reading.value_of_lacksNumber (by simp) (by simp) lacks
            | simple param =>
                exact ⟨text, param, rfl, mem_simpleParams.2 isDeclared, key.symm,
                  (bounds isDeclared).optional_of_lacksNumber lacks⟩

/-- A call that succeeds on accepted declarations results in what these take and need, in all plain
parameters and in each repetition. Witness: the blocks that the schema admits.
-/
theorem bind_represents {entries : List Entry} {schema : Schema} {replacer : Replacer}
    {arguments : List (Option String)} {bound : Bound}
    (accepted : Schema.declare entries = .ok schema)
    (isBound : (bind entries replacer arguments).result = .ok bound)
    : bound.Represents schema := by
  obtain ⟨-, leading, named, cut, admitted, rfl⟩ := (bind_result_eq_ok_iff_cut accepted).1 isBound
  exact admitted.represents replacer cut.declared cut.shaped

/-- A trade holds an account and a side, and each of its fills has one value and a price. -/
theorem trade_represented
    : Schema.declare Trade.entries = .ok Trade.schema
      ∧ ∃ bound,
          (bind Trade.entries id Trade.arguments).result = .ok bound
          ∧ bound.Represents Trade.schema := by
  obtain ⟨bound, bound_ok⟩ := Trade.exists_bound
  exact ⟨Trade.declare_entries, bound, bound_ok, bind_represents Trade.declare_entries bound_ok⟩

end ArgBinding
