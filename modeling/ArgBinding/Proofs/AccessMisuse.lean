import ArgBinding.Proofs.Completion

/-! Accesses that a schema rules out. A single value is refused under every name that means no
parameter of a single value, whatever is bound, so two results of one schema refuse the same names.
Two accesses are an exception, as they ask first whether there is a value: they refuse the name of a
parameter of several values, or of a group, only where something is bound to it.
-/

namespace ArgBinding

open ArgBinding.Numeral ArgBinding.Text

-----------------------------------------------------------------------------------------
-- Misuse
-----------------------------------------------------------------------------------------

/-- The error tells that a name was asked for what its parameter does not offer. -/
def ReadError.isMisuse : ReadError → Bool
  | unknown _ | unknownMember _ | isGroup _ | notGroup _ | multiple _ => true
  | noValue _ | integer _ _ | binary64 _ | decimal _ | noMember _ | unsupported => false

/-- The access is refused as a misuse. Other errors are about the values. -/
def Misused {α : Type} (answer : Except ReadError α) : Prop :=
  ∃ e, answer = .error e ∧ e.isMisuse = true

instance {α : Type} (answer : Except ReadError α) : Decidable (Misused answer) :=
  match answer with
  | .ok _ => .isFalse (by simp [Misused])
  | .error e => decidable_of_iff (e.isMisuse = true) (by simp [Misused])

section Misused

variable {α β : Type} {e : ReadError} {value : α}

@[simp]
theorem misused_error : Misused (.error e : Except ReadError α) ↔ e.isMisuse = true := by
  simp [Misused]

@[simp]
theorem not_misused_ok : ¬ Misused (.ok value : Except ReadError α) := by
  simp [Misused]

theorem misused_map_iff {answer : Except ReadError α} {f : α → β}
    : Misused (answer.map f) ↔ Misused answer := by
  cases answer <;> simp [Except.map]

/-- A conversion that fails by the value that it was given does not tell of a misuse. -/
theorem FailsByValue.not_misused {convert : String → Except ReadError α}
    (converts : FailsByValue convert) (text : String)
    : ¬ Misused (convert text) := by
  rintro ⟨e, fails, misuse⟩
  have conversion := converts text e fails
  cases e <;> simp_all [ReadError.isMisuse, ReadError.isConversion]

end Misused

-----------------------------------------------------------------------------------------
-- Accesses
-----------------------------------------------------------------------------------------

/-- An access to the single value of a name, by the type of its answer. A conversion may fail by the
value that it is given, but it does not tell of a misuse.
-/
inductive SingleAccess : Type → Type 1 where
  | value : SingleAccess (Option String)
  | converted? {α : Type} (convert : String → Except ReadError α)
      (faithful : ∀ text, ¬ Misused (convert text)) : SingleAccess (Option α)
  | mapped? {α : Type} (f : String → α) : SingleAccess (Option α)
  | member? (enumeration : Enumeration) : SingleAccess (Option String)
  | integer : SingleAccess Int
  | binary64 : SingleAccess Binary64
  | decimal : SingleAccess Decimal
  | truth : SingleAccess Bool
  | integer? : SingleAccess (Option Int)
  | binary64? : SingleAccess (Option Binary64)
  | argument? : SingleAccess (Option String)
  | argumentFor? (name : Option String) : SingleAccess (Option String)

namespace SingleAccess

/-- What a reading answers to an access. -/
def ask (reading : Reading) : {α : Type} → SingleAccess α → Except ReadError α
  | _, value => reading.value
  | _, converted? convert _ => reading.converted? convert
  | _, mapped? f => reading.mapped? f
  | _, member? enumeration => reading.member? enumeration
  | _, integer => reading.integer
  | _, binary64 => reading.binary64
  | _, decimal => reading.decimal
  | _, truth => reading.truth
  | _, integer? => reading.integer?
  | _, binary64? => reading.binary64?
  | _, argument? => reading.argument?
  | _, argumentFor? name => reading.argumentFor? name

/-- The access asks whether there is a value before it asks for one. -/
def asksFirst {α : Type} : SingleAccess α → Bool
  | integer? | binary64? => true
  | _ => false

end SingleAccess

namespace Reading

variable {α : Type} {reading : Reading} {convert : String → Except ReadError α}

theorem misused_converted?_iff (faithful : ∀ text, ¬ Misused (convert text))
    : Misused (reading.converted? convert) ↔ Misused reading.value := by
  unfold converted?
  rcases reading.value with e | _ | text
  · simp
  · simp
  · simp [misused_map_iff, faithful]

theorem misused_converted_iff (faithful : ∀ text, ¬ Misused (convert text))
    : Misused (reading.converted convert) ↔ Misused reading.value := by
  unfold converted
  rcases reading.value with e | _ | text
  · simp
  · simp [ReadError.isMisuse]
  · simp [faithful]

theorem misused_convertedIfPresent_iff {present : Bool}
    (faithful : ∀ text, ¬ Misused (convert text)) (told : reading.hasValue = .ok present)
    : Misused (reading.convertedIfPresent convert)
      ↔ Misused reading.value ∧ present = true := by
  unfold convertedIfPresent
  cases present <;> simp [told, misused_map_iff, misused_converted_iff faithful]

end Reading

/-- An access is refused exactly where the single value is, unless it asks first and is told that
there is none; witness: the case of the access.
-/
theorem SingleAccess.misused_ask_iff {α : Type} {reading : Reading} {present : Bool}
    (access : SingleAccess α) (told : reading.hasValue = .ok present)
    : Misused (access.ask reading)
      ↔ Misused reading.value ∧ (access.asksFirst = true → present = true) := by
  have always {answer : Except ReadError α} (alike : Misused answer ↔ Misused reading.value)
      : Misused answer ↔ Misused reading.value ∧ (false = true → present = true) := by
    simpa using alike
  have ifPresent {answer : Except ReadError α}
      (alike : Misused answer ↔ Misused reading.value ∧ present = true)
      : Misused answer ↔ Misused reading.value ∧ (true = true → present = true) := by
    simpa using alike
  cases access with
  | value => exact always Iff.rfl
  | converted? convert faithful => exact always (Reading.misused_converted?_iff faithful)
  | mapped? f => exact always (Reading.misused_converted?_iff fun _ => not_misused_ok)
  | member? enumeration =>
      exact always (Reading.misused_converted?_iff (failsByValue_memberOf enumeration).not_misused)
  | integer => exact always (Reading.misused_converted_iff failsByValue_integerOf.not_misused)
  | binary64 => exact always (Reading.misused_converted_iff failsByValue_binary64Of.not_misused)
  | decimal => exact always (Reading.misused_converted_iff failsByValue_decimalOf.not_misused)
  | truth => exact always misused_map_iff
  | argument? => exact always (Reading.misused_converted?_iff fun _ => not_misused_ok)
  | argumentFor? name => exact always (Reading.misused_converted?_iff fun _ => not_misused_ok)
  | integer? =>
      exact ifPresent
        (Reading.misused_convertedIfPresent_iff failsByValue_integerOf.not_misused told)
  | binary64? =>
      exact ifPresent
        (Reading.misused_convertedIfPresent_iff failsByValue_binary64Of.not_misused told)

-----------------------------------------------------------------------------------------
-- Results of one schema
-----------------------------------------------------------------------------------------

/-- The name, in any case, means a parameter of a single value. -/
def Schema.TakesSingle (schema : Schema) (name : Option String) : Prop :=
  ∃ param,
    .simple param ∈ schema.params
    ∧ name.map lower = some param.key
    ∧ param.allowMultiple = false

theorem Schema.takesSingle_iff {schema : Schema} {text : String}
    : schema.TakesSingle (some text)
      ↔ ∃ param, schema.find? text = some (.simple param) ∧ param.allowMultiple = false := by
  refine exists_congr fun param => ?_
  rw [find?_eq_some_iff, and_assoc, Option.map_some, Option.some.injEq, @eq_comm _ (lower text)]
  rfl

/-- A result always tells whether there is a value, also under a name that means nothing. -/
theorem Bound.exists_hasValue (bound : Bound) (name : Option String)
    : ∃ present, (bound.read name).hasValue = .ok present := by
  unfold read
  rcases name.bind bound.find? with _ | param | group
  · exact ⟨_, rfl⟩
  · exact ⟨_, rfl⟩
  · exact ⟨_, rfl⟩

/-- The single value is refused under every name that means no parameter of a single value. -/
theorem Schema.misused_value_completed_iff {schema : Schema} {replacer : Replacer}
    {progress : Progress} {name : Option String}
    : Misused ((schema.completed replacer progress).read name).value
      ↔ ¬ schema.TakesSingle name := by
  unfold Bound.read
  cases name with
  | none => simp [ReadError.isMisuse, TakesSingle]
  | some text =>
      rw [Option.bind_some, Schema.find?_completed, Schema.takesSingle_iff]
      rcases schema.find? text with _ | param | group
      · simp [ReadError.isMisuse]
      · cases takes : param.allowMultiple with
        | false => simp [Simple.value_reading takes, takes]
        | true => simp [Simple.value_reading_of_several takes, takes, ReadError.isMisuse]
      · simp [ReadError.isMisuse]

/-- After two calls that succeed on the same declarations, an access is refused as a misuse exactly
under the names that mean no parameter of a single value, if it does not ask first whether there is
a value; if it does, only where it is told so. So the two results refuse an access alike exactly
where it does not ask first, or the name means a parameter of a single value, or both results have a
value of that name or neither has. Witness: both results are read by the parameter that the name
means in the schema.
-/
theorem bind_misused_iff {entries : List Entry} {schema : Schema} {replacer again : Replacer}
    {arguments others : List (Option String)} {bound other : Bound}
    (accepted : Schema.declare entries = .ok schema)
    (isBound : (bind entries replacer arguments).result = .ok bound)
    (isOther : (bind entries again others).result = .ok other) {α : Type}
    (access : SingleAccess α) (name : Option String)
    : (Misused (access.ask (bound.read name))
        ↔ ¬ schema.TakesSingle name
          ∧ (access.asksFirst = true → (bound.read name).hasValue = .ok true))
      ∧ ((Misused (access.ask (bound.read name)) ↔ Misused (access.ask (other.read name)))
        ↔ access.asksFirst = false
          ∨ schema.TakesSingle name
          ∨ (bound.read name).hasValue = (other.read name).hasValue) := by
  have refused {replacer : Replacer} {arguments : List (Option String)} {bound : Bound}
      (isBound : (bind entries replacer arguments).result = .ok bound)
      : Misused (access.ask (bound.read name))
        ↔ ¬ schema.TakesSingle name
          ∧ (access.asksFirst = true → (bound.read name).hasValue = .ok true) := by
    obtain ⟨-, declared, progress, isDeclared, -, done⟩ := bind_result_eq_ok_iff.1 isBound
    obtain rfl := Except.ok.inj (isDeclared.symm.trans accepted)
    obtain ⟨-, rfl⟩ := complete_eq_ok_iff.1 done
    obtain ⟨present, told⟩ := Bound.exists_hasValue (declared.completed replacer progress) name
    rw [access.misused_ask_iff told, Schema.misused_value_completed_iff, told, Except.ok.injEq]
  refine ⟨refused isBound, ?_⟩
  obtain ⟨present, told⟩ := bound.exists_hasValue name
  obtain ⟨otherPresent, otherTold⟩ := other.exists_hasValue name
  rw [refused isBound, refused isOther, told, otherTold]
  by_cases takes : schema.TakesSingle name
  · simp [takes]
  · cases access.asksFirst <;> cases present <;> cases otherPresent <;> simp [takes]

/-- The tags of a trade are refused as a single value, also where there are none, and no access to
the account is refused.
-/
theorem trade_misuse_alike
    : Schema.declare Trade.entries = .ok Trade.schema
      ∧ ∃ bound other,
          (bind Trade.entries id Trade.arguments).result = .ok bound
          ∧ (bind Trade.entries id Trade.bareArguments).result = .ok other
          ∧ Misused (SingleAccess.truth.ask (bound.read (some "tags")))
          ∧ Misused (SingleAccess.truth.ask (other.read (some "tags")))
          ∧ (Misused (SingleAccess.integer?.ask (bound.read (some "account")))
            ↔ Misused (SingleAccess.integer?.ask (other.read (some "account")))) := by
  obtain ⟨bound, bound_ok⟩ := Trade.exists_bound
  obtain ⟨other, other_ok⟩ : ∃ other,
      (bind Trade.entries id Trade.bareArguments).result = .ok other :=
    exists_eq_ok_of_isSome (by decide +kernel)
  have several : ¬ Trade.schema.TakesSingle (some "tags") := by
    rw [Schema.takesSingle_iff]
    rintro ⟨param, found, single⟩
    have isTags : Trade.schema.find? "tags" = some (.simple Trade.tags) := by decide
    rw [isTags] at found
    cases found
    cases single
  have single : Trade.schema.TakesSingle (some "account") :=
    ⟨Trade.account, by decide, by decide, rfl⟩
  obtain ⟨tags, same⟩ :=
    bind_misused_iff Trade.declare_entries bound_ok other_ok .truth (some "tags")
  obtain ⟨-, account⟩ :=
    bind_misused_iff Trade.declare_entries bound_ok other_ok .integer? (some "account")
  have refused := tags.2 ⟨several, by simp [SingleAccess.asksFirst]⟩
  exact ⟨Trade.declare_entries, bound, other, bound_ok, other_ok, refused,
    (same.2 (Or.inl rfl)).1 refused, account.2 (Or.inr (Or.inl single))⟩

/-- A whole number is refused of tags only where there are some: without tags it is just missing. -/
theorem tags_refused_by_data
    : Schema.declare Trade.entries = .ok Trade.schema
      ∧ ∃ bound other,
          (bind Trade.entries id Trade.arguments).result = .ok bound
          ∧ (bind Trade.entries id Trade.bareArguments).result = .ok other
          ∧ Misused (SingleAccess.integer?.ask (bound.read (some "tags")))
          ∧ ¬ Misused (SingleAccess.integer?.ask (other.read (some "tags"))) := by
  have supplied : (bind Trade.entries id Trade.arguments).result.toOption.map
        (fun bound => decide (Misused (SingleAccess.integer?.ask (bound.read (some "tags")))))
      = some true := by
    decide +kernel
  have bare : (bind Trade.entries id Trade.bareArguments).result.toOption.map
        (fun bound => decide (Misused (SingleAccess.integer?.ask (bound.read (some "tags")))))
      = some false := by
    decide +kernel
  obtain ⟨bound, bound_ok, refused⟩ := exists_eq_ok_of_map_toOption supplied
  obtain ⟨other, other_ok, accepted⟩ := exists_eq_ok_of_map_toOption bare
  exact ⟨Trade.declare_entries, bound, other, bound_ok, other_ok, of_decide_eq_true refused,
    of_decide_eq_false accepted⟩

end ArgBinding
