import ArgBinding.Proofs.Declarations

/-! Which declarations are accepted. Entries make a schema exactly when all of them are parameters,
no required one stands behind one of another kind, and no two share a key; each key then leads to
its parameter. Otherwise the first entry that cannot stand behind those in front of it is the error.
-/

namespace ArgBinding

open ArgBinding.Text

/-- Parameters that can be declared together in this order. No required parameter stands behind one
that may be left out, which a group always is.
-/
structure Consistent (params : List Param) : Prop where
  required_first
    : params.Pairwise fun earlier later => later.isRequired = true → earlier.isRequired = true
  keys_nodup : (params.map Param.key).Nodup

instance (params : List Param) : Decidable (Consistent params) :=
  decidable_of_iff
    ((params.Pairwise fun earlier later => later.isRequired = true → earlier.isRequired = true)
      ∧ (params.map Param.key).Nodup)
    ⟨fun ⟨ordered, distinct⟩ => ⟨ordered, distinct⟩, fun h => ⟨h.required_first, h.keys_nodup⟩⟩

/-- An entry cannot stand behind some parameters, with the error that says so. What is no parameter
never can. A required parameter is first of all out of place behind one that is not required, and
any parameter is repeated behind one of the same key.
-/
inductive Entry.Rejected (before : List Param) : Entry → SchemaError → Prop
  | unsupported (datum : Datum)
    : Rejected before (.other datum) (.unsupported datum.spelled)
  | misplaced {param earlier : Param} (required : param.isRequired = true)
    (isBefore : earlier ∈ before) (optional : earlier.isRequired = false)
    : Rejected before (.declared param) .requiredAfterOptional
  | repeated {param earlier : Param}
    (placed : param.isRequired = true → ∀ other ∈ before, other.isRequired = true)
    (isBefore : earlier ∈ before) (same : earlier.key = param.key)
    : Rejected before (.declared param) (.duplicate param.name)

namespace Schema

variable {schema : Schema} {entries : List Entry} {e : SchemaError}

theorem consistent (schema : Schema) : Consistent schema.params :=
  ⟨schema.required_first, schema.keys_nodup⟩

-----------------------------------------------------------------------------------------
-- What is accepted and what is not
-----------------------------------------------------------------------------------------

/-- An entry is refused behind the parameters of a schema exactly when it cannot stand there, with
the error that says so. The place of a required parameter is looked at before its key.
-/
theorem extend_eq_error_iff {entry : Entry}
    : schema.extend entry = .error e ↔ entry.Rejected schema.params e := by
  constructor
  · intro refused
    cases entry with
    | other datum =>
        cases refused
        exact .unsupported datum
    | declared param =>
        dsimp only [extend] at refused
        split at refused
        · rename_i misplaced
          obtain ⟨required, behindOther⟩ := misplaced
          obtain ⟨earlier, isBefore, optional⟩ := List.any_eq_true.1 behindOther
          cases refused
          exact .misplaced required isBefore (by simpa using optional)
        · rename_i placed
          split at refused
          · rename_i known
            obtain ⟨earlier, isBefore, same⟩ := List.mem_map.1 known
            cases refused
            refine .repeated ?_ isBefore same
            intro required other isOther
            by_contra optional
            exact placed ⟨required, List.any_eq_true.2 ⟨other, isOther, by simpa using optional⟩⟩
          · cases refused
  · intro rejected
    cases rejected with
    | unsupported datum => rfl
    | misplaced required isBefore optional =>
        dsimp only [extend]
        rw [dif_pos ⟨required, List.any_eq_true.2 ⟨_, isBefore, by simp [optional]⟩⟩]
    | @repeated param earlier placed isBefore same =>
        have inPlace : ¬ (param.isRequired = true
            ∧ schema.params.any (!·.isRequired) = true) := by
          intro h
          rcases h with ⟨required, behindOther⟩
          obtain ⟨other, isOther, optional⟩ := List.any_eq_true.1 behindOther
          simp [placed required other isOther] at optional
        dsimp only [extend]
        rw [dif_neg inPlace, dif_pos (same ▸ List.mem_map_of_mem isBefore)]

/-- Declarations make a schema exactly when they are consistent parameters. -/
theorem exists_declare_eq_ok_iff
    : (∃ schema, declare entries = .ok schema)
      ↔ ∃ params, entries = params.map Entry.declared ∧ Consistent params := by
  simp only [declare_eq_ok_iff]
  constructor
  · intro h
    rcases h with ⟨schema, same⟩
    exact ⟨schema.params, same, schema.consistent⟩
  · intro h
    rcases h with ⟨params, same, ordered, distinct⟩
    exact ⟨{ params := params, keys_nodup := distinct, required_first := ordered }, same⟩

/-- Declarations fail on the first entry that cannot stand behind the consistent parameters in front
of it.
-/
theorem declare_eq_error_iff
    : declare entries = .error e
      ↔ ∃ before entry after,
          entries = before.map Entry.declared ++ entry :: after
          ∧ Consistent before
          ∧ entry.Rejected before e := by
  rw [declare, foldlM_eq_error_iff]
  constructor
  · intro h
    rcases h with ⟨_, entry, after, reached, rfl, run, refused⟩
    obtain rfl := declare_eq_ok_iff.1 run
    exact ⟨reached.params, entry, after, rfl, reached.consistent, extend_eq_error_iff.1 refused⟩
  · intro h
    rcases h with ⟨before, entry, after, rfl, consistent, rejected⟩
    obtain ⟨reached, run⟩ := exists_declare_eq_ok_iff.2 ⟨before, rfl, consistent⟩
    obtain rfl := Entry.declared_injective.list_map (declare_eq_ok_iff.1 run)
    exact ⟨_, entry, after, reached, rfl, run, extend_eq_error_iff.2 rejected⟩

-----------------------------------------------------------------------------------------
-- The index of a schema
-----------------------------------------------------------------------------------------

theorem keys_index (schema : Schema)
    : schema.index.map Prod.fst = schema.params.map Param.key := by
  simp [index]

/-- A key leads to the one parameter that has it. -/
theorem lookup_index_eq_some_iff {key : String} {param : Param}
    : schema.index.lookup key = some param ↔ param ∈ schema.params ∧ param.key = key := by
  rw [lookup_index]
  exact find?_key_eq_some_iff schema.keys_nodup

/-- Declarations make a schema exactly when all are parameters, no required one stands behind one of
another kind, and no two share a key. The index of the schema then has the keys in the order of
declaration and leads from each to its parameter, and binding searches a name by its lower case in
it. Otherwise the first entry that cannot stand behind those in front of it is the error. Witness:
checking the entries one by one, each behind a schema.
-/
theorem declare_accepts_consistent (entries : List Entry)
    : ((∃ schema, declare entries = .ok schema)
        ↔ ∃ params, entries = params.map Entry.declared ∧ Consistent params)
      ∧ (∀ (params : List Param) (schema : Schema),
          entries = params.map Entry.declared
          → declare entries = .ok schema
          → schema.index.map Prod.fst = params.map Param.key
            ∧ (∀ key param,
                schema.index.lookup key = some param ↔ param ∈ params ∧ param.key = key)
            ∧ ∀ name, schema.find? name = schema.index.lookup (lower name))
      ∧ ∀ e,
          declare entries = .error e
          ↔ ∃ before entry after,
              entries = before.map Entry.declared ++ entry :: after
              ∧ Consistent before
              ∧ entry.Rejected before e := by
  refine ⟨exists_declare_eq_ok_iff, ?_, fun e => declare_eq_error_iff⟩
  intro params schema isParams accepted
  have same : params = schema.params :=
    Entry.declared_injective.list_map (isParams.symm.trans (declare_eq_ok_iff.1 accepted))
  subst same
  exact ⟨schema.keys_index, fun key param => lookup_index_eq_some_iff, fun name => rfl⟩

end Schema

/-- The declarations of a trade are accepted, and its index leads to the tags. An account behind
them is out of place before it is repeated, and a repeated account is the error in front of an entry
that is no parameter.
-/
theorem trade_declared
    : (∃ schema, Schema.declare Trade.entries = .ok schema)
      ∧ Trade.schema.index.map Prod.fst = ["account", "side", "tags", "fill"]
      ∧ Trade.schema.index.lookup "tags" = some (.simple Trade.tags)
      ∧ Schema.declare (Trade.entries ++ [.declared (.simple Trade.account)])
        = .error .requiredAfterOptional
      ∧ Schema.declare
          [.declared (.simple Trade.account), .declared (.simple Trade.account), .other .null]
        = .error (.duplicate "Account") := by
  obtain ⟨accepted, indexed, -⟩ := Schema.declare_accepts_consistent Trade.entries
  obtain ⟨keys, leads, -⟩ := indexed Trade.schema.params Trade.schema rfl Trade.declare_entries
  refine ⟨accepted.2 ⟨Trade.schema.params, rfl, by decide⟩, ?_, ?_, ?_, ?_⟩
  · rw [keys]
    decide
  · exact (leads "tags" (.simple Trade.tags)).2 ⟨by simp [Trade.schema], by decide⟩
  · refine ((Schema.declare_accepts_consistent _).2.2 _).2
      ⟨Trade.schema.params, _, [], rfl, by decide, ?_⟩
    have isBefore : .simple Trade.tags ∈ Trade.schema.params := by simp [Trade.schema]
    exact .misplaced rfl isBefore rfl
  · refine ((Schema.declare_accepts_consistent _).2.2 _).2
      ⟨[.simple Trade.account], _, [.other .null], rfl, by decide, ?_⟩
    exact .repeated (by simp [Trade.account, Param.isRequired]) (List.mem_singleton_self _) rfl

end ArgBinding
