import ArgBinding.Proofs.Grammar

/-! Copies of several names. They are the copies of the single names one behind the other, where a
name counts only once whatever its case, and nothing is copied when one of them is not declared. The
copy of a single name writes out what is read under it.
-/

namespace ArgBinding

open ArgBinding.Text

-----------------------------------------------------------------------------------------
-- Names that are repeated
-----------------------------------------------------------------------------------------

/-- Related items are repeated alike where being repeated agrees on them, by induction on their
number: the items behind the first that repeat it are passed over on both sides.
-/
theorem forall₂_eraseDupsBy {α β : Type} {related : α → β → Prop} {repeats : α → α → Bool}
    {repeats' : β → β → Bool}
    (agree
      : ∀ {item other}, related item other
        → ∀ {first first'}, related first first' → repeats item first = repeats' other first')
    : ∀ {items : List α} {others : List β},
        List.Forall₂ related items others
        → List.Forall₂ related (items.eraseDupsBy repeats) (others.eraseDupsBy repeats')
  | [], [], .nil => by simp
  | first :: items, first' :: others, .cons isFirst rest => by
      rw [List.eraseDupsBy_cons, List.eraseDupsBy_cons]
      refine .cons isFirst (forall₂_eraseDupsBy agree ?_)
      refine List.rel_filter ?_ rest
      intro item other isRelated
      simp [agree isRelated isFirst]
termination_by items => items.length
decreasing_by
  exact Nat.lt_succ_of_le (List.length_filter_le _ _)

/-- An item that repeats none in front of it is kept, behind some of these. Induction on the number
of the items in front of it, as those that repeat the first are passed over.
-/
theorem exists_eraseDupsBy_append_cons {α : Type} {repeats : α → α → Bool} {item : α}
    : ∀ {before after : List α},
        (∀ earlier ∈ before, repeats item earlier = false)
        → ∃ front back,
            (before ++ item :: after).eraseDupsBy repeats = front ++ item :: back
            ∧ front ⊆ before
  | [], after, _ => ⟨[], _, List.eraseDupsBy_cons, List.nil_subset _⟩
  | first :: before, after, fresh => by
      rw [List.cons_append, List.eraseDupsBy_cons, List.filter_append,
        List.filter_cons_of_pos (by simp [fresh first])]
      have others : ∀ earlier ∈ before.filter fun earlier => repeats earlier first = false,
          repeats item earlier = false :=
        fun earlier member => fresh earlier (List.mem_cons_of_mem _ (List.mem_of_mem_filter member))
      obtain ⟨front, back, kept, within⟩ := exists_eraseDupsBy_append_cons others
      rw [kept]
      exact ⟨first :: front, back, rfl,
        List.cons_subset_cons first (List.Subset.trans within (List.filter_subset_self _))⟩
termination_by before => before.length
decreasing_by
  exact Nat.lt_succ_of_le (List.length_filter_le _ _)

/-- A name repeats an earlier one, whatever their case. -/
def repeatsName (name earlier : Option String) : Bool :=
  name.map lower == earlier.map lower

namespace Bound

variable {bound : Bound} {name : Option String} {names : List (Option String)} {param : Param}
  {params : List Param}

/-- Of parameters whose key did not come before the first of each key is left, by induction on the
parameters.
-/
theorem distinct_eq_eraseDupsBy (before : List String) (params : List Param)
    : distinct before params
      = (params.filter fun param => !before.contains param.key).eraseDupsBy
          fun param earlier => param.key == earlier.key := by
  induction params generalizing before with
  | nil => simp [distinct]
  | cons first rest ih =>
      unfold distinct
      split
      · rename_i known
        rw [ih, List.filter_cons_of_neg (by simpa using known)]
      · rename_i fresh
        rw [ih, List.filter_cons_of_pos (by simpa using fresh), List.eraseDupsBy_cons,
          List.filter_filter]
        congr 2
        refine List.filter_congr ?_
        intro param _
        simp

theorem key_of_named (meant : bound.named name = .ok param)
    : name.map lower = some param.key := by
  unfold named at meant
  cases name with
  | none => cases meant
  | some name =>
      cases found : bound.find? name with
      | none => simp [found] at meant
      | some other =>
          have isParam : other = param := by simpa [found] using meant
          have key : other.key = lower name := by simpa using List.find?_some found
          rw [Option.map_some, ← key, isParam]

/-- The first of the names that mean a parameter mean the parameters, each of them once. -/
theorem forall₂_named_distinct
    (meant : List.Forall₂ (fun name param => bound.named name = .ok param) names params)
    : List.Forall₂ (fun name param => bound.named name = .ok param)
        (names.eraseDupsBy repeatsName) (distinct [] params) := by
  rw [distinct_eq_eraseDupsBy, List.filter_eq_self.2 (by simp)]
  refine forall₂_eraseDupsBy ?_ meant
  intro name param isMeant earlier earlier' isMeant'
  rw [repeatsName, key_of_named isMeant, key_of_named isMeant']
  rfl

/-- A name that repeats one which means a parameter means it too. -/
theorem named_of_repeats {earlier : Option String} (repeats : repeatsName name earlier = true)
    (meant : bound.named earlier = .ok param)
    : bound.named name = .ok param := by
  have same : name.map lower = earlier.map lower := by simpa [repeatsName] using repeats
  have means (text : Option String)
      : text.bind bound.find?
        = (text.map lower).bind fun key => bound.params.reverse.find? (·.key == key) := by
    cases text <;> rfl
  have found : name.bind bound.find? = earlier.bind bound.find? := by
    rw [means, same, ← means]
  unfold named at meant ⊢
  rw [found]
  cases isFound : earlier.bind bound.find? with
  | none => simp [isFound] at meant
  | some other => simpa [isFound] using meant

/-- Names are copied as the first of each are, up to the first that means no parameter. -/
theorem copy_eq (bound : Bound) (names : List (Option String))
    : bound.copy names
      = ((names.eraseDupsBy repeatsName).mapM bound.named).map (·.flatMap bound.argumentsOf) := by
  unfold copy
  cases run : names.mapM bound.named with
  | ok params =>
      rw [mapM_eq_ok_iff.2 (forall₂_named_distinct (mapM_eq_ok_iff.1 run))]
      rfl
  | error e =>
      obtain ⟨before, name, after, rfl, known, fails⟩ := mapM_eq_error_iff.1 run
      have fresh : ∀ earlier ∈ before, repeatsName name earlier = false := by
        intro earlier isBefore
        rw [Bool.eq_false_iff]
        intro repeats
        obtain ⟨param, meant⟩ := known earlier isBefore
        cases fails.symm.trans (named_of_repeats repeats meant)
      obtain ⟨front, back, kept, within⟩ := exists_eraseDupsBy_append_cons fresh
      rw [mapM_eq_error_iff.2
        ⟨front, name, back, kept, fun earlier isBefore => known earlier (within isBefore), fails⟩]
      rfl

end Bound

-----------------------------------------------------------------------------------------
-- Results of calls
-----------------------------------------------------------------------------------------

section Results

variable {schema : Schema} {replacer : Replacer} {progress : Progress} {name : Option String}

end Results

namespace Repetition

end Repetition

end ArgBinding
