import ArgBinding.Proofs.Declarations

/-! The values that arguments bring to their parameters. Binding succeeds exactly when all values
are allowed and no parameter of a single value has a second argument; the values then stand in the
order of the arguments.
-/

namespace ArgBinding

open ArgBinding.Text

namespace Simple

/-- All values in the text are allowed. -/
def Allows (param : Simple) (text : String) : Prop :=
  ∀ value ∈ param.valuesIn text, (param.choices.select? value).isSome = true

instance (param : Simple) (text : String) : Decidable (param.Allows text) :=
  inferInstanceAs (Decidable (∀ value ∈ param.valuesIn text, _))

/-- The values that a text brings to the parameter, each in the spelling under which it is taken.
-/
def valuesFrom (param : Simple) (text : String) : List String :=
  (param.valuesIn text).filterMap param.choices.select?

/-- What a parameter has in the end: the values that were supplied, or its default without any. -/
def orDefault (param : Simple) (supplied : List String) : List String :=
  if supplied = [] then param.default?.toList else supplied

/-- An allowed text is selected as a whole for a parameter of a single value. -/
theorem exists_selected_eq {param : Simple} {text : String} (single : param.allowMultiple = false)
    (allowed : param.Allows text)
    : ∃ value, param.choices.select? text = some value ∧ param.valuesFrom text = [value] := by
  have whole : param.valuesIn text = [text] := by simp [valuesIn, single]
  obtain ⟨value, selected⟩ := Option.isSome_iff_exists.1 (allowed text (by simp [whole]))
  exact ⟨value, selected, by simp [valuesFrom, whole, selected]⟩

/-- An allowed text brings exactly one value to a parameter of a single value. -/
theorem exists_valuesFrom_eq {param : Simple} {text : String} (single : param.allowMultiple = false)
    (allowed : param.Allows text)
    : ∃ value, param.valuesFrom text = [value] := by
  obtain ⟨value, -, only⟩ := exists_selected_eq single allowed
  exact ⟨value, only⟩

end Simple

/-- The arguments may both be bound: they go to different keys or to a parameter of several values.
-/
def Assignment.Apart (earlier later : Assignment) : Prop :=
  earlier.1.key = later.1.key → earlier.1.allowMultiple = true

/-- The bindings that assigned arguments make when all of them are accepted. -/
def bindingsOf (assignments : List Assignment) : List Binding :=
  assignments.flatMap fun (param, argument) =>
    (param.valuesFrom argument.value).map fun value => { param := param, value := value }

/-- The values that assigned arguments bring to a key, in the order of the arguments. -/
def assignedValues (key : String) (assignments : List Assignment) : List String :=
  assignments.flatMap fun (param, argument) =>
    if param.key = key then param.valuesFrom argument.value else []

theorem boundValues_map (key : String) (param : Simple) (values : List String)
    : boundValues key (values.map fun value => { param := param, value := value })
      = if param.key = key then values else [] := by
  induction values with
  | nil => simp [boundValues]
  | cons value rest ih =>
      simp only [List.map_cons, boundValues, List.filterMap_cons] at ih ⊢
      split <;> simp_all

/-- The bindings of assigned arguments hold their values, by induction on the assignments. -/
theorem boundValues_bindingsOf (key : String) (assignments : List Assignment)
    : boundValues key (bindingsOf assignments) = assignedValues key assignments := by
  induction assignments with
  | nil => rfl
  | cons assignment rest ih =>
      simp only [bindingsOf, assignedValues, List.flatMap_cons] at ih ⊢
      rw [boundValues_append, boundValues_map, ih]

theorem assignedValues_append (key : String) (earlier later : List Assignment)
    : assignedValues key (earlier ++ later)
      = assignedValues key earlier ++ assignedValues key later := by
  simp [assignedValues]

theorem mem_assignedValues {key value : String} {assignments : List Assignment}
    : value ∈ assignedValues key assignments
      ↔ ∃ x ∈ assignments, x.1.key = key ∧ value ∈ x.1.valuesFrom x.2.value := by
  simp only [assignedValues, List.mem_flatMap]
  refine exists_congr fun x => and_congr_right fun _ => ?_
  by_cases same : x.1.key = key <;> simp [same]

theorem assignedValues_cons (key : String) (first : Assignment) (rest : List Assignment)
    : assignedValues key (first :: rest)
      = (if first.1.key = key then first.1.valuesFrom first.2.value else [])
        ++ assignedValues key rest := rfl

/-- A parameter of a single value has at most one, by induction on the assignments: behind the one
that goes to it there is no other.
-/
theorem length_assignedValues_le {param : Simple} {assignments : List Assignment}
    (single : param.allowMultiple = false)
    (coherent : ∀ x ∈ assignments, x.1.key = param.key → x.1 = param)
    (allowed : ∀ x ∈ assignments, x.1.Allows x.2.value)
    (apart : assignments.Pairwise Assignment.Apart)
    : (assignedValues param.key assignments).length ≤ 1 := by
  induction assignments with
  | nil => exact Nat.zero_le 1
  | cons first rest ih =>
      obtain ⟨sameFirst, coherentRest⟩ := List.forall_mem_cons.1 coherent
      obtain ⟨allowedFirst, allowedRest⟩ := List.forall_mem_cons.1 allowed
      obtain ⟨apartFirst, apartRest⟩ := List.pairwise_cons.1 apart
      rw [assignedValues_cons]
      by_cases own : first.1.key = param.key
      · have singleFirst : first.1.allowMultiple = false := by
          rw [sameFirst own]
          exact single
        obtain ⟨value, only⟩ := Simple.exists_valuesFrom_eq singleFirst allowedFirst
        have none : assignedValues param.key rest = [] := by
          refine List.eq_nil_iff_forall_not_mem.2 ?_
          intro value member
          obtain ⟨x, isLater, same, -⟩ := mem_assignedValues.1 member
          have several := apartFirst x isLater (own.trans same.symm)
          exact Bool.false_ne_true (singleFirst.symm.trans several)
        simp [own, only, none]
      · rw [if_neg own, List.nil_append]
        exact ih coherentRest allowedRest apartRest

-----------------------------------------------------------------------------------------
-- Binding
-----------------------------------------------------------------------------------------

theorem acceptValue_eq_ok_iff {name value accepted : String} {choices : Choices}
    : acceptValue name choices value = .ok accepted ↔ choices.select? value = some accepted := by
  unfold acceptValue
  cases choices.select? value <;> simp

/-- Binding values succeeds exactly when all are allowed, by induction on the values. -/
theorem Simple.bindAll_eq_ok_iff {param : Simple} {values : List String} {bindings : List Binding}
    : param.bindAll values = .ok bindings
      ↔ (∀ value ∈ values, (param.choices.select? value).isSome = true)
        ∧ bindings
          = (values.filterMap param.choices.select?).map fun value =>
              { param := param, value := value } := by
  induction values generalizing bindings with
  | nil =>
      simp only [bindAll, Except.ok.injEq, List.filterMap_nil, List.map_nil, List.not_mem_nil,
        false_implies, implies_true, true_and]
      exact eq_comm
  | cons value rest ih =>
      simp only [bindAll, except_bind_eq_ok_iff, acceptValue_eq_ok_iff, ih, List.mem_cons,
        forall_eq_or_imp, List.filterMap_cons]
      constructor
      · intro h
        rcases h with ⟨accepted, selected, others, ⟨allowed, rfl⟩, ⟨⟩⟩
        exact ⟨⟨by simp [selected], allowed⟩, by simp [selected]⟩
      · intro h
        rcases h with ⟨⟨first, allowed⟩, rfl⟩
        obtain ⟨accepted, selected⟩ := Option.isSome_iff_exists.1 first
        exact ⟨accepted, selected, _, ⟨allowed, rfl⟩, by simp [selected]⟩

/-- Binding a text succeeds exactly when its values are allowed and a parameter of a single value
has none yet.
-/
theorem Simple.bindText_eq_ok_iff {param : Simple} {text : String} {bound bindings : List Binding}
    : param.bindText text bound = .ok bindings
      ↔ (param.allowMultiple = true ∨ boundValues param.key bound = [])
        ∧ param.Allows text
        ∧ bindings
          = bound ++ (param.valuesFrom text).map fun value =>
              { param := param, value := value } := by
  unfold bindText
  split
  · rename_i full
    simp only [Bool.and_eq_true, Bool.not_eq_true', List.isEmpty_eq_false_iff] at full
    simp [full]
  · rename_i free
    have free : param.allowMultiple = true ∨ boundValues param.key bound = [] := by
      rw [Bool.and_eq_true, not_and_or] at free
      simpa using free
    rw [except_map_eq_ok_iff]
    simp only [bindAll_eq_ok_iff, Allows, valuesFrom]
    constructor
    · intro h
      rcases h with ⟨added, ⟨allowed, rfl⟩, rfl⟩
      exact ⟨free, allowed, rfl⟩
    · intro h
      rcases h with ⟨_, allowed, rfl⟩
      exact ⟨_, ⟨allowed, rfl⟩, rfl⟩

/-- Binding values fails on one that is not allowed, by induction on the values. -/
theorem Simple.exists_notAllowed_of_bindAll {param : Simple} {values : List String}
    {e : BindingError} (fails : param.bindAll values = .error e)
    : ∃ name value choices, e = .notAllowed name value choices := by
  induction values with
  | nil => cases fails
  | cons value rest ih =>
      simp only [bindAll, except_bind_eq_error_iff] at fails
      rcases fails with notAllowed | ⟨accepted, -, fails | ⟨bindings, -, impossible⟩⟩
      · unfold acceptValue at notAllowed
        split at notAllowed
        · cases notAllowed
        · cases notAllowed
          exact ⟨_, _, _, rfl⟩
      · exact ih fails
      · cases impossible

/-- Binding a text fails for a second value exactly where a parameter of a single value has one. -/
theorem Simple.bindText_eq_repeated_iff {param : Simple} {text name : String} {bound : List Binding}
    : param.bindText text bound = .error (.repeated name)
      ↔ param.allowMultiple = false ∧ boundValues param.key bound ≠ [] ∧ param.name = name := by
  unfold bindText
  split
  · rename_i full
    simp only [Bool.and_eq_true, Bool.not_eq_true', List.isEmpty_eq_false_iff] at full
    simp [full]
  · rename_i free
    simp only [Bool.and_eq_true, Bool.not_eq_true', List.isEmpty_eq_false_iff] at free
    refine iff_of_false ?_ fun h => free ⟨h.1, h.2.1⟩
    intro fails
    obtain ⟨_, _, _, same⟩ := exists_notAllowed_of_bindAll (except_map_eq_error_iff.1 fails)
    cases same

theorem bindAssigned_append (earlier later : List Assignment) (bound : List Binding)
    : bindAssigned (earlier ++ later) bound
      = (bindAssigned earlier bound >>= bindAssigned later) := by
  unfold bindAssigned
  rw [List.foldlM_append]

theorem bindAssigned_cons (first : Assignment) (rest : List Assignment) (bound : List Binding)
    : bindAssigned (first :: rest) bound
      = (first.1.bindText first.2.value bound >>= bindAssigned rest) := by
  unfold bindAssigned
  rw [List.foldlM_cons]

/-- Binding assigned arguments succeeds exactly when all their values are allowed, no two of them go
to one parameter of a single value, and none goes to such a parameter that is bound already.
Induction on the assignments: an allowed argument leaves a value under the key of its parameter,
which is where a later argument for the same parameter fails.
-/
theorem bindAssigned_eq_ok_iff {assignments : List Assignment} {bound bindings : List Binding}
    (coherent
      : ∀ x ∈ assignments, ∀ y ∈ assignments, x.1.key = y.1.key → x.1 = y.1)
    : bindAssigned assignments bound = .ok bindings
      ↔ (∀ x ∈ assignments, x.1.Allows x.2.value)
        ∧ assignments.Pairwise Assignment.Apart
        ∧ (∀ x ∈ assignments, x.1.allowMultiple = true ∨ boundValues x.1.key bound = [])
        ∧ bindings = bound ++ bindingsOf assignments := by
  induction assignments generalizing bound with
  | nil =>
      simp only [bindAssigned, bindingsOf, List.foldlM_nil, pure, Except.pure, Except.ok.injEq,
        List.flatMap_nil, List.append_nil, List.not_mem_nil, false_implies, implies_true,
        List.Pairwise.nil, true_and]
      exact eq_comm
  | cons first rest ih =>
      have coherentRest : ∀ x ∈ rest, ∀ y ∈ rest, x.1.key = y.1.key → x.1 = y.1 :=
        fun x hx y hy => coherent x (by simp [hx]) y (by simp [hy])
      -- What the first argument leaves under the key of a later one.
      have left (x : Assignment)
          : boundValues x.1.key
              (bound ++ (first.1.valuesFrom first.2.value).map fun value =>
                { param := first.1, value := value })
            = boundValues x.1.key bound
              ++ if first.1.key = x.1.key then first.1.valuesFrom first.2.value else [] := by
        rw [boundValues_append, boundValues_map]
      rw [bindAssigned_cons, except_bind_eq_ok_iff]
      simp only [Simple.bindText_eq_ok_iff, List.mem_cons, forall_eq_or_imp, List.pairwise_cons]
      constructor
      · intro h
        rcases h with ⟨middle, ⟨free, allowed, rfl⟩, following⟩
        obtain ⟨allowedRest, apart, freeRest, rfl⟩ := (ih coherentRest).1 following
        refine ⟨⟨allowed, allowedRest⟩, ⟨?_, apart⟩, ⟨free, ?_⟩, ?_⟩
        · intro x member same
          by_contra single
          rw [Bool.not_eq_true] at single
          obtain ⟨value, only⟩ := Simple.exists_valuesFrom_eq single allowed
          rcases freeRest x member with several | unbound
          · rw [coherent first (by simp) x (by simp [member]) same] at single
            simp [several] at single
          · rw [left, if_pos same, only] at unbound
            simp at unbound
        · intro x member
          refine (freeRest x member).imp_right fun unbound => ?_
          rw [left] at unbound
          exact (List.append_eq_nil_iff.1 unbound).1
        · simp [bindingsOf]
      · intro h
        rcases h with ⟨⟨allowed, allowedRest⟩, ⟨apartFirst, apart⟩, ⟨free, freeRest⟩, rfl⟩
        refine ⟨_, ⟨free, allowed, rfl⟩, (ih coherentRest).2 ⟨allowedRest, apart, ?_, ?_⟩⟩
        · intro x member
          by_cases same : first.1.key = x.1.key
          · refine Or.inl ?_
            rw [← coherent first (by simp) x (by simp [member]) same]
            exact apartFirst x member same
          · refine (freeRest x member).imp_right fun unbound => ?_
            rw [left, unbound, if_neg same, List.append_nil]
        · simp [bindingsOf]

/-- A parameter is settled exactly when it has a value or need not have one. -/
theorem Simple.settle_eq_ok_iff {param : Simple} {missing : String → BindingError}
    {bindings : List Binding} {values : List String}
    : param.settle missing bindings = .ok values
      ↔ (param.isRequired = true → boundValues param.key bindings ≠ [])
        ∧ values = param.orDefault (boundValues param.key bindings) := by
  unfold settle orDefault default?
  cases boundValues param.key bindings with
  | cons value rest =>
      simp only [Except.ok.injEq, ne_eq, reduceCtorEq, not_false_eq_true, implies_true, if_false,
        true_and]
      exact eq_comm
  | nil =>
      cases present : param.presence with
      | required => simp [isRequired, present]
      | optional default =>
          simp only [isRequired, present, Except.ok.injEq, reduceCtorEq, beq_iff_eq, false_implies,
            if_true, true_and]
          exact eq_comm

end ArgBinding
