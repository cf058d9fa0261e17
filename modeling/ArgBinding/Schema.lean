import ArgBinding.Param.Group

/-! Schemas: consistent lists of parameters. The names are distinct ignoring case, and required
parameters stand before all others.
-/

namespace ArgBinding

open ArgBinding.Text

/-- Looking up a key finds the first pair that has it, by induction on the pairs. -/
theorem lookup_eq_map_find? {α : Type} (pairs : List (String × α)) (key : String)
    : pairs.lookup key = (pairs.find? fun pair => pair.1 == key).map Prod.snd := by
  induction pairs with
  | nil => rfl
  | cons pair rest ih =>
      rw [List.lookup_cons, List.find?_cons, BEq.comm (a := key), ih]
      cases pair.1 == key <;> rfl

/-- A consistent list of parameters in the order of declaration. -/
structure Schema where
  params : List Param
  keys_nodup : (params.map Param.key).Nodup
  required_first : params.Pairwise fun earlier later =>
    later.isRequired = true → earlier.isRequired = true

namespace Schema

/-- The schema without parameters. -/
def empty : Schema :=
  { params := [], keys_nodup := by simp, required_first := by simp }

/-- The schema with one more parameter behind the others. -/
def extend (schema : Schema) (entry : Entry) : Except SchemaError Schema :=
  match entry with
  | .other datum => .error (.unsupported datum.spelled)
  | .declared param =>
      if misplaced : param.isRequired = true ∧ schema.params.any (!·.isRequired) = true then
        .error .requiredAfterOptional
      else if known : param.key ∈ schema.params.map Param.key then
        .error (.duplicate param.name)
      else
        .ok {
          params := schema.params ++ [param]
          keys_nodup := by
            rw [List.map_append]
            refine List.nodup_append.2 ⟨schema.keys_nodup, by simp, ?_⟩
            intro key present other isNew
            simp only [List.map_cons, List.map_nil, List.mem_singleton] at isNew
            subst isNew
            rintro rfl
            exact known present
          required_first := by
            refine List.pairwise_append.2 ⟨schema.required_first, by simp, ?_⟩
            intro earlier present later isNew required
            simp only [List.mem_singleton] at isNew
            subst isNew
            by_cases h : earlier.isRequired = true
            · exact h
            · exact absurd ⟨required, List.any_eq_true.2 ⟨earlier, present, by simp [h]⟩⟩ misplaced
        }

/-- The schema of some declarations, which are checked in order. -/
def declare (entries : List Entry) : Except SchemaError Schema :=
  entries.foldlM extend empty

/-- The index of the schema: its parameters under their keys, in the order of declaration. -/
def index (schema : Schema) : List (String × Param) :=
  schema.params.map fun param => (param.key, param)

/-- The parameter that a name means, in any case: the one under its lower case in the index. -/
def find? (schema : Schema) (name : String) : Option Param :=
  schema.index.lookup (lower name)

theorem lookup_index (schema : Schema) (key : String)
    : schema.index.lookup key = schema.params.find? fun param => param.key == key := by
  rw [lookup_eq_map_find?, index, List.find?_map, Option.map_map]
  exact congrFun Option.map_id _

/-- A name means a parameter of the schema that has its key. -/
theorem key_of_find? {schema : Schema} {name : String} {param : Param}
    (h : schema.find? name = some param)
    : param ∈ schema.params ∧ param.key = lower name := by
  rw [find?, lookup_index] at h
  exact ⟨List.mem_of_find?_eq_some h, by simpa using List.find?_some h⟩

end Schema

end ArgBinding
