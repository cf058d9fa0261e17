import ArgBinding.Bind
import ArgBinding.Proofs.Lacking

/-! What bound arguments result in. Completing a run fails only where a required parameter has no
value, with the first declared one as the error; otherwise each declared parameter is read back with
the values bound under its key, or its default, and each group with its repetitions.
-/

namespace ArgBinding

open ArgBinding.Text

theorem mem_simpleParams {params : List Param} {param : Simple}
    : param ∈ simpleParams params ↔ .simple param ∈ params := by
  simp only [simpleParams, List.mem_filterMap]
  constructor
  · intro h
    rcases h with ⟨declared, member, same⟩
    cases declared with
    | simple other => simpa [← Option.some.inj same] using member
    | repeating group => cases same
  · exact fun member => ⟨_, member, rfl⟩

theorem mem_groupsAmong {params : List Param} {group : Group}
    : group ∈ groupsAmong params ↔ .repeating group ∈ params := by
  simp only [groupsAmong, List.mem_filterMap]
  constructor
  · intro h
    rcases h with ⟨declared, member, same⟩
    cases declared with
    | simple param => cases same
    | repeating other => simpa [← Option.some.inj same] using member
  · exact fun member => ⟨_, member, rfl⟩

theorem simpleParams_append (front back : List Param)
    : simpleParams (front ++ back) = simpleParams front ++ simpleParams back :=
  List.filterMap_append

theorem simpleParams_sublist (params : List Param)
    : ((simpleParams params).map Param.simple).Sublist params := by
  induction params with
  | nil => exact List.Sublist.slnil
  | cons param rest ih =>
      cases param with
      | simple param => exact ih.cons_cons (.simple param)
      | repeating group => exact ih.cons (.repeating group)

theorem simpleParams_keys_sublist (params : List Param)
    : ((simpleParams params).map Simple.key).Sublist (params.map Param.key) := by
  have keys := (simpleParams_sublist params).map Param.key
  rwa [List.map_map] at keys

theorem groupsAmong_keys_sublist (params : List Param)
    : ((groupsAmong params).map Group.key).Sublist (params.map Param.key) := by
  induction params with
  | nil => exact List.Sublist.slnil
  | cons param rest ih =>
      cases param with
      | simple param => exact ih.cons param.key
      | repeating group => exact ih.cons_cons group.key

/-- The repetitions of a group among all that were completed. -/
def repetitionsOf (replacer : Replacer) (repetitions : List (Group × Table)) (group : Group)
    : List Repetition :=
  repetitions.filterMap fun (repeated, table) =>
    if repeated.key = group.key then
      some { group := repeated, values := table, replacer := replacer }
    else
      none

/-- What a run results in when no required parameter lacks a value. -/
def Schema.completed (schema : Schema) (replacer : Replacer) (progress : Progress) : Bound :=
  {
    params := schema.params
    values := (simpleParams schema.params).map fun param =>
      (param.key, param.orDefault (boundValues param.key progress.bindings))
    groups := (groupsAmong schema.params).map fun group =>
      (group.key, repetitionsOf replacer progress.repetitions group)
    replacer := replacer
    applied :=
      appliedBindings progress.bindings
        ++ appliedDefaults (simpleParams schema.params) progress.bindings
  }

/-- The first declared parameter that is required and lacks a value after some progress. -/
def Schema.lacking? (schema : Schema) (progress : Progress) : Option Simple :=
  firstLacking? (boundValues · progress.bindings) (simpleParams schema.params)

/-- A run is completed unless a declared parameter lacks a value. -/
theorem complete_eq (schema : Schema) (replacer : Replacer) (progress : Progress)
    : complete schema replacer progress
      = match schema.lacking? progress with
        | some param => .error (.missing param.name)
        | none => .ok (schema.completed replacer progress) := by
  unfold complete Schema.lacking?
  dsimp only
  rw [settleAll_eq]
  cases firstLacking? (boundValues · progress.bindings) (simpleParams schema.params) <;> rfl

/-- A run is completed exactly when every required parameter has a value. -/
theorem complete_eq_ok_iff {schema : Schema} {replacer : Replacer} {progress : Progress}
    {bound : Bound}
    : complete schema replacer progress = .ok bound
      ↔ (∀ param,
          .simple param ∈ schema.params
          → param.isRequired = true
          → boundValues param.key progress.bindings ≠ [])
        ∧ bound = schema.completed replacer progress := by
  simp only [complete, except_bind_eq_ok_iff, settleAll_eq_ok_iff, mem_simpleParams]
  constructor
  · intro h
    rcases h with ⟨values, ⟨supplied, rfl⟩, ⟨⟩⟩
    exact ⟨supplied, rfl⟩
  · intro h
    rcases h with ⟨supplied, rfl⟩
    exact ⟨_, ⟨supplied, rfl⟩, rfl⟩

-----------------------------------------------------------------------------------------
-- Conversions of values
-----------------------------------------------------------------------------------------

/-- The error is about a value that cannot be converted. -/
def ReadError.isConversion : ReadError → Bool
  | integer _ _ | binary64 _ | decimal _ | noMember _ => true
  | _ => false

/-- Where the conversion fails, the error is about the value that it was given. -/
def FailsByValue {α : Type} (convert : String → Except ReadError α) : Prop :=
  ∀ text e, convert text = .error e → e.isConversion = true

theorem failsByValue_integerOf : FailsByValue integerOf := by
  intro text e fails
  unfold integerOf at fails
  cases read : Numeral.readInteger text <;> rw [read] at fails <;> cases fails
  rfl

theorem failsByValue_binary64Of : FailsByValue binary64Of := by
  intro text e fails
  unfold binary64Of at fails
  split at fails <;> cases fails
  rfl

theorem failsByValue_decimalOf : FailsByValue decimalOf := by
  intro text e fails
  unfold decimalOf at fails
  cases read : Numeral.Decimal.ofText text <;> rw [read] at fails <;> cases fails
  rfl

theorem failsByValue_memberOf (enumeration : Enumeration)
    : FailsByValue (memberOf enumeration) := by
  intro text e fails
  unfold memberOf at fails
  split at fails <;> cases fails
  rfl

-----------------------------------------------------------------------------------------
-- Reading the result back
-----------------------------------------------------------------------------------------

namespace Schema

variable {schema : Schema} {replacer : Replacer} {progress : Progress}

/-- A plain parameter is read back with what was bound under its key, or its default. -/
theorem values_at_completed {param : Simple} (declared : .simple param ∈ schema.params)
    : (schema.completed replacer progress).values.at param.key
      = param.orDefault (boundValues param.key progress.bindings) := by
  have distinct := schema.keys_nodup.sublist (simpleParams_keys_sublist schema.params)
  unfold completed Table.at
  dsimp only
  rw [lookup_map_key
    (fun param : Simple => param.orDefault (boundValues param.key progress.bindings)) distinct
    (mem_simpleParams.2 declared)]
  rfl

theorem repetitionsAt_completed {group : Group} (declared : .repeating group ∈ schema.params)
    : (schema.completed replacer progress).repetitionsAt group.key
      = repetitionsOf replacer progress.repetitions group := by
  have distinct := schema.keys_nodup.sublist (groupsAmong_keys_sublist schema.params)
  unfold completed Bound.repetitionsAt
  dsimp only
  rw [lookup_map_key (repetitionsOf replacer progress.repetitions) distinct
    (mem_groupsAmong.2 declared)]
  rfl

theorem find?_completed (name : String)
    : (schema.completed replacer progress).find? name = schema.find? name := by
  have distinct : (schema.params.reverse.map Param.key).Nodup := by
    rw [List.map_reverse, List.nodup_reverse]
    exact schema.keys_nodup
  apply Option.ext
  intro param
  unfold Bound.find? completed
  rw [find?_key_eq_some_iff distinct, find?_eq_some_iff, List.mem_reverse]

theorem find?_completed_of_key {param : Param} {name : String} (declared : param ∈ schema.params)
    (key : lower name = param.key)
    : (schema.completed replacer progress).find? name = some param := by
  rw [find?_completed]
  exact find?_eq_some_iff.2 ⟨declared, key.symm⟩

theorem named_completed {param : Param} {name : String} (declared : param ∈ schema.params)
    (key : lower name = param.key)
    : (schema.completed replacer progress).named (some name) = .ok param := by
  simp only [Bound.named, Option.bind_some, find?_completed_of_key declared key]

theorem repetitions_completed {group : Group} {name : String}
    (declared : .repeating group ∈ schema.params) (key : lower name = group.key)
    : (schema.completed replacer progress).repetitions (some name)
      = .ok ((schema.completed replacer progress).repetitionsAt group.key) := by
  rw [Bound.repetitions, named_completed declared key]

/-- A plain parameter is read under its name in any case. -/
theorem read_completed {param : Simple} {name : String} (declared : .simple param ∈ schema.params)
    (key : lower name = param.key)
    : (schema.completed replacer progress).read (some name)
      = param.reading replacer (some name)
          ((schema.completed replacer progress).values.at param.key) := by
  unfold Bound.read
  rw [Option.bind_some, find?_completed_of_key declared key]
  rfl

end Schema

namespace Simple

variable {param : Simple}

/-- A parameter of a single value is read as the first of its values. -/
theorem value_reading (single : param.allowMultiple = false) (replacer : Replacer)
    (name : Option String) (values : List String)
    : (param.reading replacer name values).value = .ok (values.head?.map replacer) := by
  simp only [reading, Simple.single, single, Bool.false_eq_true, if_false, Except.map]

/-- A parameter of several values is not read as a single value, whatever its values are. -/
theorem value_reading_of_several (several : param.allowMultiple = true) (replacer : Replacer)
    (name : Option String) (values : List String)
    : (param.reading replacer name values).value = .error (.multiple param.name) := by
  simp only [reading, Simple.single, several, if_true, Except.map]

end Simple

/-- A parameter of a group is read under its name in any case. -/
theorem Repetition.read_of_key {repetition : Repetition} {member : Simple} {name : String}
    (isMember : member ∈ repetition.group.params) (key : lower name = member.key)
    : repetition.read (some name)
      = member.reading repetition.replacer (some name) (repetition.values.at member.key) := by
  unfold read
  rw [Group.find?_of_key isMember key]

/-- Pairs put under distinct names are kept in order, by induction on the pairs. -/
theorem foldl_put_eq {α β : Type} {name : β → String} (value : β → α) {items : List β}
    {before : List (String × α)}
    (distinct : (before.map Prod.fst ++ items.map name).Nodup)
    : items.foldl (fun pairs item => Bound.put (name item) (value item) pairs) before
      = before ++ items.map fun item => (name item, value item) := by
  have behind (key : String) (fresh : α) {pairs : List (String × α)}
      (absent : key ∉ pairs.map Prod.fst)
      : Bound.put key fresh pairs = pairs ++ [(key, fresh)] := by
    induction pairs with
    | nil => rfl
    | cons pair rest ih =>
        simp only [List.map_cons, List.mem_cons, not_or] at absent
        simp only [Bound.put, if_neg (Ne.symm absent.1), ih absent.2, List.cons_append]
  induction items generalizing before with
  | nil => simp
  | cons item rest ih =>
      have absent : name item ∉ before.map Prod.fst := by
        intro member
        exact (List.nodup_append.1 distinct).2.2 _ member (name item) (by simp) rfl
      rw [List.foldl_cons, behind _ _ absent, ih]
      · simp
      · simpa using distinct

theorem Schema.names_nodup (schema : Schema) : (schema.params.map Param.name).Nodup := by
  have keys := schema.keys_nodup
  have split : Param.key = lower ∘ Param.name := by
    funext param
    cases param <;> rfl
  rw [split, ← List.map_map] at keys
  exact keys.of_map lower

/-- What all parameters are bound to, by name and in the order of declaration. -/
theorem Schema.contents_completed (schema : Schema) (replacer : Replacer) (progress : Progress)
    : (schema.completed replacer progress).contents
      = schema.params.map fun param =>
          (param.name, (schema.completed replacer progress).contentsOf param) := by
  unfold Bound.contents
  rw [@foldl_put_eq _ _ Param.name _ _ _ (by simpa [Schema.completed] using schema.names_nodup)]
  rfl

theorem Schema.lookup_contents_completed {schema : Schema} {replacer : Replacer}
    {progress : Progress} {param : Param} (declared : param ∈ schema.params)
    : (schema.completed replacer progress).contents.lookup param.name
      = some ((schema.completed replacer progress).contentsOf param) := by
  rw [Schema.contents_completed]
  exact lookup_map_key (schema.completed replacer progress).contentsOf schema.names_nodup declared

theorem Repetition.lookup_contents {repetition : Repetition} {member : Simple}
    (isMember : member ∈ repetition.group.params)
    : repetition.contents.lookup member.name = some (repetition.values.at member.key) :=
  @lookup_map_key _ _ Simple.name _ (fun member => repetition.values.at member.key) _
    repetition.group.names_nodup isMember

/-- The result of a call that does not ask for the help, on accepted declarations: the error at
which its arguments could not be bound, or else what is lacking in the end.
-/
theorem bind_result_eq {entries : List Entry} {schema : Schema} {arguments : List (Option String)}
    (replacer : Replacer) (accepted : Schema.declare entries = .ok schema)
    (notUsage : arguments ≠ [some usageRequest])
    : (bind entries replacer arguments).result
      = match bindArguments schema (Argument.ofTexts arguments) with
        | .error halt => .error (.binding halt.error)
        | .ok progress =>
            match schema.lacking? progress with
            | some param => .error (.binding (.missing param.name))
            | none => .ok (schema.completed replacer progress) := by
  rw [bind_of_accepted replacer accepted notUsage]
  dsimp only [Schema.bind]
  cases bindArguments schema (Argument.ofTexts arguments) with
  | error halt => rfl
  | ok progress =>
      dsimp only
      rw [complete_eq]
      cases schema.lacking? progress <;> rfl

instance (result : Except Error Bound) (cause : BindingError)
    : Decidable (result = .error (.binding cause)) :=
  match result with
  | .error (.binding other) =>
      if same : other = cause then
        .isTrue (same ▸ rfl)
      else
        .isFalse fun equal => same (Error.binding.inj (Except.error.inj equal))
  | .error (.usage _) => .isFalse nofun
  | .error (.schema _) => .isFalse nofun
  | .error (.reading _) => .isFalse nofun
  | .ok _ => .isFalse nofun

/-- A call succeeds exactly when it does not ask for the help, its declarations are accepted, and
its arguments are bound and nothing is missing.
-/
theorem bind_result_eq_ok_iff {entries : List Entry} {replacer : Replacer}
    {arguments : List (Option String)} {bound : Bound}
    : (bind entries replacer arguments).result = .ok bound
      ↔ arguments ≠ [some usageRequest]
        ∧ ∃ schema progress,
            Schema.declare entries = .ok schema
            ∧ bindArguments schema (Argument.ofTexts arguments) = .ok progress
            ∧ complete schema replacer progress = .ok bound := by
  unfold bind
  dsimp only [Option.getD_some]
  split
  · simp_all
  · cases Schema.declare entries with
    | error cause => simp
    | ok schema =>
        dsimp only [Schema.bind]
        cases run : bindArguments schema (Argument.ofTexts arguments) with
        | error halt => simp_all [Except.mapError]
        | ok progress =>
            cases done : complete schema replacer progress <;> simp_all [Except.mapError]

theorem Trade.exists_bound : ∃ bound, (bind entries id arguments).result = .ok bound :=
  exists_eq_ok_of_isSome (by decide +kernel)

end ArgBinding
