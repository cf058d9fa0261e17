import ArgBinding.Proofs.Rendering

/-! Values that are bound again. What was bound to a parameter is kept when each value is written in
an argument of its own, whatever was split, spelled otherwise or filled in before.
-/

namespace ArgBinding

open ArgBinding.Text

/-- Values that the parameter has again when each of them is given in an argument of its own. -/
structure Simple.Returns (param : Simple) (values : List String) : Prop where
  kept : ∀ value ∈ values, param.Keeps value
  once : param.allowMultiple = false → values.length ≤ 1
  supplied : param.isRequired = true → values ≠ []
  settled : param.orDefault values = values

/-- What assigned arguments bring to a parameter, or else its default, is what the parameter has
again.
-/
theorem Simple.Copyable.returns {param : Simple} {assignments : List Assignment}
    (copyable : param.Copyable)
    (coherent : ∀ x ∈ assignments, x.1.key = param.key → x.1 = param)
    (trimmed : ∀ x ∈ assignments, Trimmed x.2.value)
    (allowed : ∀ x ∈ assignments, x.1.Allows x.2.value)
    (apart : assignments.Pairwise Assignment.Apart)
    (supplied : param.isRequired = true → assignedValues param.key assignments ≠ [])
    : param.Returns (param.orDefault (assignedValues param.key assignments)) := by
  unfold orDefault
  by_cases none : assignedValues param.key assignments = []
  · rw [if_pos none]
    refine ⟨?_, ?_, fun required => absurd none (supplied required), ?_⟩
    · intro value member
      exact copyable.default_kept value (Option.mem_toList.1 member)
    · cases param.default? <;> simp
    · simp [orDefault]
  · rw [if_neg none]
    refine ⟨?_, ?_, supplied, if_neg none⟩
    · intro value member
      obtain ⟨x, isAssigned, same, isValue⟩ := mem_assignedValues.1 member
      rw [coherent x isAssigned same] at isValue
      exact copyable.keeps (trimmed x isAssigned) isValue
    · exact fun single => length_assignedValues_le single coherent allowed apart

theorem Simple.Returns.exists_eq {param : Simple} {values : List String}
    (returns : param.Returns values) (required : param.isRequired = true)
    (single : param.allowMultiple = false)
    : ∃ value, values = [value] := by
  have some := List.length_pos_iff.2 (returns.supplied required)
  have atMost := returns.once single
  exact List.length_eq_one_iff.1 (by omega)

/-- Two values tell that the parameter takes several. -/
theorem Simple.Returns.pairwise {param : Simple} {values : List String}
    {related : String → String → Prop} (returns : param.Returns values)
    (h : param.allowMultiple = true → ∀ earlier later, related earlier later)
    : values.Pairwise related := by
  by_cases several : param.allowMultiple = true
  · exact List.pairwise_of_forall (h several)
  · have atMost := returns.once (Bool.eq_false_iff.2 several)
    rcases values with _ | ⟨value, _ | ⟨next, rest⟩⟩
    · exact List.Pairwise.nil
    · exact List.pairwise_singleton _ _
    · simp at atMost

/-- A value of the parameter in an argument of its own. -/
def Simple.argument (param : Simple) (value : String) : Argument :=
  Argument.ofText (Argument.render param.name value)

/-- Each value of each parameter in an argument of its own. -/
def written (values : Simple → List String) (params : List Simple) : List Assignment :=
  params.flatMap fun param => (values param).map fun value => (param, param.argument value)

namespace Simple

variable {param : Simple} {value : String} {values : List String}

theorem Copyable.argument_eq (copyable : param.Copyable) (trimmed : Trimmed value)
    : param.argument value
      = {
          written := Argument.render param.name value
          name := some param.name
          value := value
        } :=
  Argument.ofText_render copyable.name_trimmed copyable.name_plain trimmed

theorem Copyable.argument_names (copyable : param.Copyable) (trimmed : Trimmed value)
    : (param.argument value).Names param.key := by
  rw [copyable.argument_eq trimmed]
  rfl

theorem Copyable.argument_value (copyable : param.Copyable) (trimmed : Trimmed value)
    : (param.argument value).value = value := by
  rw [copyable.argument_eq trimmed]

/-- The arguments of kept values bring them back, by induction on the values. -/
theorem Copyable.assignedValues_map (copyable : param.Copyable) (key : String)
    (kept : ∀ value ∈ values, param.Keeps value)
    : assignedValues key (values.map fun value => (param, param.argument value))
      = if param.key = key then values else [] := by
  induction values with
  | nil => simp [assignedValues]
  | cons value rest ih =>
      obtain ⟨keeps, keptRest⟩ := List.forall_mem_cons.1 kept
      rw [List.map_cons, assignedValues_cons, ih keptRest]
      dsimp only
      rw [copyable.argument_value keeps.whole.trimmed, keeps.valuesFrom_eq]
      split <;> rfl

end Simple

section Written

variable {values : Simple → List String} {params : List Simple} {param : Simple}

theorem mem_written {x : Assignment}
    : x ∈ written values params
      ↔ x.1 ∈ params ∧ ∃ value ∈ values x.1, x.2 = x.1.argument value := by
  obtain ⟨taken, argument⟩ := x
  simp only [written, List.mem_flatMap, List.mem_map, Prod.mk.injEq]
  constructor
  · intro h
    rcases h with ⟨_, member, value, isValue, rfl, rfl⟩
    exact ⟨member, value, isValue, rfl⟩
  · intro h
    rcases h with ⟨member, value, isValue, rfl⟩
    exact ⟨taken, member, value, isValue, rfl, rfl⟩

theorem assignedValues_written_eq_nil {key : String}
    (fresh : ∀ param ∈ params, param.key ≠ key)
    : assignedValues key (written values params) = [] := by
  refine List.eq_nil_iff_forall_not_mem.2 ?_
  intro value member
  obtain ⟨x, isWritten, same, -⟩ := mem_assignedValues.1 member
  exact fresh x.1 (mem_written.1 isWritten).1 same

/-- Each parameter has its own values again, by induction on the parameters. -/
theorem assignedValues_written (copyable : ∀ param ∈ params, param.Copyable)
    (kept : ∀ param ∈ params, ∀ value ∈ values param, param.Keeps value)
    (distinct : (params.map Simple.key).Nodup) (member : param ∈ params)
    : assignedValues param.key (written values params) = values param := by
  induction params with
  | nil => cases member
  | cons first rest ih =>
      obtain ⟨copyableFirst, copyableRest⟩ := List.forall_mem_cons.1 copyable
      obtain ⟨keptFirst, keptRest⟩ := List.forall_mem_cons.1 kept
      obtain ⟨fresh, distinctRest⟩ := List.nodup_cons.1 distinct
      have other : ∀ later ∈ rest, later.key ≠ first.key := by
        intro later isLater same
        exact fresh (same ▸ List.mem_map_of_mem isLater)
      have split : written values (first :: rest)
          = (values first).map (fun value => (first, first.argument value))
            ++ written values rest := rfl
      rw [split, assignedValues_append, copyableFirst.assignedValues_map _ keptFirst]
      rcases List.mem_cons.1 member with rfl | later
      · rw [if_pos rfl, assignedValues_written_eq_nil other, List.append_nil]
      · rw [if_neg (other param later).symm, List.nil_append]
        exact ih copyableRest keptRest distinctRest later

theorem allows_of_mem_written (copyable : ∀ param ∈ params, param.Copyable)
    (kept : ∀ param ∈ params, ∀ value ∈ values param, param.Keeps value)
    : ∀ x ∈ written values params, x.1.Allows x.2.value := by
  intro x isWritten
  obtain ⟨member, value, isValue, same⟩ := mem_written.1 isWritten
  have keeps := kept x.1 member value isValue
  rw [same, (copyable x.1 member).argument_value keeps.whole.trimmed]
  exact keeps.allows

theorem names_of_mem_written (copyable : ∀ param ∈ params, param.Copyable)
    (kept : ∀ param ∈ params, ∀ value ∈ values param, param.Keeps value)
    : ∀ x ∈ written values params, x.2.Names x.1.key := by
  intro x isWritten
  obtain ⟨member, value, isValue, same⟩ := mem_written.1 isWritten
  rw [same]
  exact (copyable x.1 member).argument_names (kept x.1 member value isValue).whole.trimmed

end Written

end ArgBinding
