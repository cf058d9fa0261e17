import ArgBinding.Proofs.Rendering

/-! Rendered arguments that are read. Which names and values come back is decided by reading alone:
exactly those that reading can give at all, so what was read once is read again unchanged.
-/

namespace ArgBinding.Argument

open ArgBinding.Text

/-- The text can be read as a name: it is trimmed, and no sign that ends a name stands in it. -/
structure Readable (name : String) : Prop where
  trimmed : Trimmed name
  no_equals : '=' ∉ name.toList
  no_colon : ':' ∉ name.toList

theorem plain_iff {cs : List Char}
    : (∀ c ∈ cs, isNameEnd c = false) ↔ '=' ∉ cs ∧ ':' ∉ cs := by
  simp only [isNameEnd, Bool.or_eq_false_iff, beq_eq_false_iff_ne, ne_eq, forall_and]
  constructor
  · intro h
    exact ⟨fun equals => h.1 '=' equals rfl, fun colon => h.2 ':' colon rfl⟩
  · intro h
    rcases h with ⟨no_equals, no_colon⟩
    refine ⟨?_, ?_⟩
    · rintro c member rfl
      exact no_equals member
    · rintro c member rfl
      exact no_colon member

theorem readable_iff {name : String}
    : Readable name ↔ Trimmed name ∧ ∀ c ∈ name.toList, isNameEnd c = false := by
  rw [plain_iff]
  exact ⟨fun h => ⟨h.trimmed, h.no_equals, h.no_colon⟩, fun h => ⟨h.1, h.2.1, h.2.2⟩⟩

/-- A text is positional exactly when no sign in it ends a name. -/
theorem name_ofText_eq_none_iff {text : String}
    : (ofText text).name = none ↔ '=' ∉ text.toList ∧ ':' ∉ text.toList := by
  rw [← plain_iff]
  unfold ofText
  dsimp only
  split
  · rename_i all
    rw [List.dropWhile_eq_nil_iff] at all
    simpa using all
  · rename_i sign behind some
    have ends : isNameEnd sign = true := by simpa using head_dropWhile_not some
    have present : sign ∈ text.toList :=
      (List.dropWhile_suffix _).subset (some ▸ List.mem_cons_self)
    simp only [reduceCtorEq, false_iff, not_forall, Bool.not_eq_false]
    exact ⟨sign, present, ends⟩

/-- A name that is read stands in front of all signs that end a name, and it is trimmed. -/
theorem readable_of_name {text name : String} (named : (ofText text).name = some name)
    : Readable name := by
  unfold ofText at named
  dsimp only at named
  split at named
  · cases named
  · cases named
    rw [readable_iff, String.toList_ofList]
    refine ⟨trimmed_ofList _, ?_⟩
    intro c member
    have inFront := (trimChars_isInfix _).subset member
    simpa using List.mem_takeWhile_imp inFront

/-- An argument that is rendered is read as its name and value exactly when the name can be read as
one and the value is trimmed.
-/
theorem ofText_render_iff {name value : String}
    : ((ofText (render name value)).name = some name
        ∧ (ofText (render name value)).value = value)
      ↔ Readable name ∧ Trimmed value := by
  constructor
  · intro h
    rcases h with ⟨named, same⟩
    refine ⟨readable_of_name named, ?_⟩
    have trimmed := trimmed_value (render name value)
    rwa [same] at trimmed
  · intro h
    rcases h with ⟨readable, trimmed⟩
    obtain ⟨name_trimmed, name_plain⟩ := readable_iff.1 readable
    rw [ofText_render name_trimmed name_plain trimmed]
    exact ⟨rfl, rfl⟩

/-- Rendering a name and a value and reading both back goes well exactly when the name is trimmed
and holds no sign that ends a name, and the value is trimmed. A text is positional exactly when it
holds no such sign. What is read from a text meets these conditions, so rendering the name and the
value of a named argument and reading the result gives both again.
-/
theorem rendered_reads_back
    : (∀ name value : String,
        ((ofText (render name value)).name = some name
          ∧ (ofText (render name value)).value = value)
        ↔ Readable name ∧ Trimmed value)
      ∧ ∀ text : String,
          ((ofText text).isPositional = true ↔ '=' ∉ text.toList ∧ ':' ∉ text.toList)
          ∧ Trimmed (ofText text).value
          ∧ ∀ name,
              (ofText text).name = some name
              → Readable name
                ∧ (ofText (render name (ofText text).value)).name = some name
                ∧ (ofText (render name (ofText text).value)).value = (ofText text).value := by
  refine ⟨fun name value => ofText_render_iff, fun text => ⟨?_, trimmed_value text, ?_⟩⟩
  · rw [isPositional, Option.isNone_iff_eq_none, name_ofText_eq_none_iff]
  · intro name named
    have readable := readable_of_name named
    exact ⟨readable, ofText_render_iff.2 ⟨readable, trimmed_value text⟩⟩

/-- A message with wide blanks around its name and signs in its value is read again as the same. -/
theorem message_reads_back
    : (ofText "\u00a0message \u2003= ERROR: a=b\u3000").name = some "message"
      ∧ (ofText "\u00a0message \u2003= ERROR: a=b\u3000").value = "ERROR: a=b"
      ∧ (ofText (render "message" "ERROR: a=b")).name = some "message"
      ∧ (ofText (render "message" "ERROR: a=b")).value = "ERROR: a=b" := by
  have named : (ofText "\u00a0message \u2003= ERROR: a=b\u3000").name = some "message" := by
    decide +kernel
  have value : (ofText "\u00a0message \u2003= ERROR: a=b\u3000").value = "ERROR: a=b" := by
    decide +kernel
  obtain ⟨-, again⟩ := (rendered_reads_back.2 _).2.2 _ named
  rw [value] at again
  exact ⟨named, value, again⟩

end ArgBinding.Argument
