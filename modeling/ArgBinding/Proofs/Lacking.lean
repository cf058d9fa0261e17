import ArgBinding.Proofs.Values

/-! Required parameters that lack a value. When all arguments of a call or of a repetition are
bound, the first of them in the order of declaration is the error, and without one there is no
error.
-/

namespace ArgBinding

open ArgBinding.Text

/-- The first of some parameters that is required and lacks a value, given the values under each
key.
-/
def firstLacking? (supplied : String → List String) (params : List Simple) : Option Simple :=
  params.find? fun param => param.isRequired && (supplied param.key).isEmpty

section Lacking

variable {supplied : String → List String} {params : List Simple} {param : Simple}

theorem firstLacking?_eq_none_iff
    : firstLacking? supplied params = none
      ↔ ∀ param ∈ params, param.isRequired = true → supplied param.key ≠ [] := by
  simp [firstLacking?]

/-- What is lacking is required and has no value, while no required parameter before it is without
one.
-/
theorem firstLacking?_eq_some_iff
    : firstLacking? supplied params = some param
      ↔ (param.isRequired = true ∧ supplied param.key = [])
        ∧ ∃ front back,
            params = front ++ param :: back
            ∧ firstLacking? supplied front = none := by
  rw [firstLacking?, List.find?_eq_some_iff_append, Bool.and_eq_true, List.isEmpty_iff]
  refine and_congr_right fun _ => exists₂_congr fun front back => and_congr_right fun _ => ?_
  simp [firstLacking?, imp_iff_not_or]

theorem mem_of_firstLacking? (lacking : firstLacking? supplied params = some param)
    : param ∈ params :=
  List.mem_of_find?_eq_some lacking

end Lacking

/-- Settling parameters fails at the first that lacks a value, by induction on the parameters. -/
theorem settleAll_eq (missing : String → BindingError) (bindings : List Binding)
    (params : List Simple)
    : settleAll missing bindings params
      = match firstLacking? (boundValues · bindings) params with
        | some param => .error (missing param.name)
        | none =>
            .ok (params.map fun param =>
              (param.key, param.orDefault (boundValues param.key bindings))) := by
  induction params with
  | nil => rfl
  | cons param rest ih =>
      by_cases lacks : param.isRequired = true ∧ boundValues param.key bindings = []
      · obtain ⟨required, unbound⟩ := lacks
        have found : firstLacking? (boundValues · bindings) (param :: rest) = some param := by
          simp [firstLacking?, required, unbound]
        have fails : param.settle missing bindings = .error (missing param.name) := by
          have presence : param.presence = .required := by simpa [Simple.isRequired] using required
          simp [Simple.settle, unbound, presence]
        rw [settleAll, found, fails]
        rfl
      · have passed : firstLacking? (boundValues · bindings) (param :: rest)
            = firstLacking? (boundValues · bindings) rest := by
          unfold firstLacking?
          exact List.find?_cons_of_neg (by simpa using lacks)
        have settled : param.settle missing bindings
            = .ok (param.orDefault (boundValues param.key bindings)) :=
          Simple.settle_eq_ok_iff.2 ⟨fun required unbound => lacks ⟨required, unbound⟩, rfl⟩
        rw [settleAll, settled, passed, ih]
        cases firstLacking? (boundValues · bindings) rest <;> rfl

/-- All parameters are settled exactly when none of them lacks a value. -/
theorem settleAll_eq_ok_iff {missing : String → BindingError} {bindings : List Binding}
    {params : List Simple} {table : Table}
    : settleAll missing bindings params = .ok table
      ↔ (∀ param ∈ params, param.isRequired = true → boundValues param.key bindings ≠ [])
        ∧ table
          = params.map fun param =>
              (param.key, param.orDefault (boundValues param.key bindings)) := by
  rw [settleAll_eq]
  cases lacking : firstLacking? (boundValues · bindings) params with
  | none =>
      rw [and_iff_right (firstLacking?_eq_none_iff.1 lacking), Except.ok.injEq, eq_comm]
  | some param =>
      obtain ⟨⟨required, unbound⟩, -⟩ := firstLacking?_eq_some_iff.1 lacking
      refine iff_of_false nofun ?_
      intro h
      exact h.1 param (mem_of_firstLacking? lacking) required unbound

end ArgBinding
