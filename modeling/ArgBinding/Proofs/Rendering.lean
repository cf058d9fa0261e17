import ArgBinding.Proofs.Values
import Mathlib.Data.List.Infix
import Mathlib.Data.List.ReduceOption
import Mathlib.Data.List.TakeWhile

/-! Values that are written as arguments and read back. A text that does not hold the separator is
one value, and no value that was split off holds it. An argument that is written with a trimmed name
and a trimmed value is read as both.
-/

namespace ArgBinding.Text

theorem trimChars_isInfix (cs : List Char) : trimChars cs <:+: cs := by
  have front : ((cs.dropWhile isBlank).reverse.dropWhile isBlank).reverse
      <+: cs.dropWhile isBlank := by
    rw [← List.reverse_suffix, List.reverse_reverse]
    exact List.dropWhile_suffix _
  exact front.isInfix.trans (List.dropWhile_suffix _).isInfix

theorem trimmed_ofList (cs : List Char) : Trimmed (String.ofList (trimChars cs)) := by
  simp [Trimmed, trim, trimChars_trimChars]

/-- A text that does not hold the separator is one piece, by induction on the characters. -/
theorem cut_eq_of_absent {separator cs : List Char} (absent : ¬ separator <:+: cs)
    : cut separator cs = [cs] := by
  have whole : cutFrom separator 0 cs = (cs, []) := by
    induction cs with
    | nil => rfl
    | cons c rest ih =>
        rw [List.infix_cons_iff, not_or] at absent
        have notFound : ¬ separator.isPrefixOf (c :: rest) = true :=
          mt List.isPrefixOf_iff_prefix.1 absent.1
        simp only [cutFrom, if_neg notFound, ih absent.2]
  rw [cut, whole]

theorem cutFrom_fst_isPrefix (separator cs : List Char) : (cutFrom separator 0 cs).1 <+: cs := by
  induction cs with
  | nil => exact List.nil_prefix
  | cons c rest ih =>
      by_cases found : separator.isPrefixOf (c :: rest) = true
      · simp only [cutFrom, if_pos found]
        exact List.nil_prefix
      · simp only [cutFrom, if_neg found, List.prefix_cons_inj]
        exact ih

/-- No piece holds the separator, by induction on the characters: a piece that did would have been
cut where it starts.
-/
theorem absent_of_mem_cutFrom {separator cs piece : List Char} (nonempty : separator ≠ [])
    {skipped : Nat}
    (member : piece ∈ (cutFrom separator skipped cs).1 :: (cutFrom separator skipped cs).2)
    : ¬ separator <:+: piece := by
  have empty : ¬ separator <:+: [] := fun held => nonempty (List.infix_nil.1 held)
  induction cs generalizing skipped piece with
  | nil =>
      obtain rfl : piece = [] := by cases skipped <;> simpa [cutFrom] using member
      exact empty
  | cons c rest ih =>
      cases skipped with
      | succ skipped => exact ih member
      | zero =>
          by_cases found : separator.isPrefixOf (c :: rest) = true
          · simp only [cutFrom, if_pos found] at member
            rcases List.mem_cons.1 member with rfl | later
            · exact empty
            · exact ih later
          · simp only [cutFrom, if_neg found] at member
            rcases List.mem_cons.1 member with rfl | later
            · rw [List.infix_cons_iff, not_or]
              refine ⟨?_, ih (List.mem_cons_self)⟩
              intro front
              refine found ?_
              apply List.isPrefixOf_iff_prefix.2
              exact front.trans ((List.prefix_cons_inj c).2 (cutFrom_fst_isPrefix separator rest))
            · exact ih (List.mem_cons_of_mem _ later)

theorem mem_of_mem_dropTrailingEmpty {pieces : List (List Char)} {piece : List Char}
    (member : piece ∈ dropTrailingEmpty pieces)
    : piece ∈ pieces := by
  unfold dropTrailingEmpty at member
  split at member
  · exact List.mem_reverse.1
      ((List.dropWhile_suffix _).subset (List.mem_reverse.1 member))
  · exact member

/-- A trimmed text that does not hold the separator is one value. -/
theorem separatedValues_eq_of_absent {separator text : String} (trimmed : Trimmed text)
    (absent : ¬ separator.toList <:+: text.toList)
    : separatedValues separator text = [text] := by
  rw [separatedValues, cut_eq_of_absent absent]
  exact congrArg (fun text => [text]) trimmed

/-- No value that is split off holds the separator, and all are trimmed. -/
theorem trimmed_of_mem_separatedValues {separator text value : String} (nonempty : separator ≠ "")
    (member : value ∈ separatedValues separator text)
    : Trimmed value ∧ ¬ separator.toList <:+: value.toList := by
  obtain ⟨piece, isPiece, rfl⟩ := List.mem_map.1 member
  refine ⟨trimmed_ofList piece, ?_⟩
  · have absent := absent_of_mem_cutFrom (mt String.toList_eq_nil_iff.1 nonempty)
      (mem_of_mem_dropTrailingEmpty isPiece)
    rw [String.toList_ofList]
    exact fun held => absent (held.trans (trimChars_isInfix piece))

end ArgBinding.Text

namespace ArgBinding

open ArgBinding.Text

namespace Argument

theorem trimmed_value (text : String) : Trimmed (ofText text).value := by
  unfold ofText
  dsimp only
  split
  · exact trimmed_trim text
  · exact trimmed_ofList _

/-- A text without a sign that ends a name is positional. -/
theorem ofText_of_plain {text : String} (plain : text.toList.any isNameEnd = false)
    : ofText text = { written := text, name := none, value := trim text } := by
  have none : text.toList.dropWhile (!isNameEnd ·) = [] := by
    rw [List.dropWhile_eq_nil_iff]
    intro c member
    simpa using List.any_eq_false.1 plain c member
  simp only [ofText, none]

/-- A text is named by what stands in front of the first sign that ends a name. -/
theorem ofText_push_append {name value : String} {sign : Char}
    (plain : name.toList.any isNameEnd = false) (ends : isNameEnd sign = true)
    : ofText (name.push sign ++ value)
      = { written := name.push sign ++ value, name := some (trim name), value := trim value } := by
  have written : (name.push sign ++ value).toList = name.toList ++ sign :: value.toList := by
    simp
  have plain : ∀ c ∈ name.toList, (!isNameEnd c) = true := by
    intro c member
    simpa using List.any_eq_false.1 plain c member
  have behind : (name.toList ++ sign :: value.toList).dropWhile (!isNameEnd ·)
      = sign :: value.toList := by
    rw [List.dropWhile_append_of_pos plain, List.dropWhile_cons_of_neg (by simp [ends])]
  have front : (name.toList ++ sign :: value.toList).takeWhile (!isNameEnd ·) = name.toList := by
    rw [List.takeWhile_append_of_pos plain, List.takeWhile_cons_of_neg (by simp [ends]),
      List.append_nil]
  simp only [ofText, written, behind, front]
  rfl

/-- An argument that is written with a name and a value is read as both. -/
theorem ofText_render {name value : String} (name_trimmed : Trimmed name)
    (name_plain : ∀ c ∈ name.toList, isNameEnd c = false) (value_trimmed : Trimmed value)
    : ofText (render name value)
      = { written := render name value, name := some name, value := value } := by
  have written : render name value = name.push ':' ++ (" " ++ value) := by
    rw [render, ← String.append_assoc, ← String.toList_inj]
    simp
  have plain : name.toList.any isNameEnd = false := by simpa using name_plain
  have valueRead : trim (" " ++ value) = value := by
    have blank : (" " ++ value).toList = ' ' :: value.toList := by simp
    rw [trim, blank]
    exact value_trimmed
  rw [written, ofText_push_append plain rfl, valueRead, name_trimmed]

theorem ofTexts_eq_map_reduceOption (texts : List (Option String))
    : ofTexts texts = texts.reduceOption.map ofText := by
  rw [ofTexts, List.reduceOption, List.map_filterMap]
  rfl

end Argument

/-- A value that is taken again once it was selected is selected in the same spelling. -/
theorem Choices.select?_of_select? {choices : Choices} {value selected : String}
    (h : choices.select? value = some selected)
    : choices.select? selected = some selected := by
  cases choices with
  | none => rfl
  | some values =>
      have same : lower selected = lower value := by simpa using List.find?_some h
      simp only [select?, same] at h ⊢
      exact h

/-- The value is trimmed, and it does not hold the separator where that would split it. -/
structure Simple.Whole (param : Simple) (value : String) : Prop where
  trimmed : Trimmed value
  undivided : param.allowMultiple = true → ¬ param.separator.toList <:+: value.toList

/-- The value is bound as it is when it is given to the parameter. -/
structure Simple.Keeps (param : Simple) (value : String) : Prop where
  whole : param.Whole value
  selected : param.choices.select? value = some value

/-- The name of the parameter can be written in an argument, its choices are whole, and its default
is kept.
-/
structure Simple.Copyable (param : Simple) : Prop where
  name_trimmed : Trimmed param.name
  name_plain : ∀ c ∈ param.name.toList, isNameEnd c = false
  choices_whole : ∀ choice ∈ param.choices.getD [], param.Whole choice
  default_kept : ∀ default ∈ param.default?, param.Keeps default

namespace Simple

variable {param : Simple} {text value : String}

instance : Decidable (param.Whole value) :=
  decidable_of_iff (Trimmed value
      ∧ (param.allowMultiple = true → ¬ param.separator.toList <:+: value.toList))
    ⟨fun h => ⟨h.1, h.2⟩, fun h => ⟨h.trimmed, h.undivided⟩⟩

instance : Decidable (param.Keeps value) :=
  decidable_of_iff (param.Whole value ∧ param.choices.select? value = some value)
    ⟨fun h => ⟨h.1, h.2⟩, fun h => ⟨h.whole, h.selected⟩⟩

theorem Whole.valuesIn_eq (whole : param.Whole value) : param.valuesIn value = [value] := by
  unfold valuesIn
  split
  · rename_i several
    exact separatedValues_eq_of_absent whole.trimmed (whole.undivided several)
  · rfl

theorem whole_of_mem_valuesIn (trimmed : Trimmed text) (member : value ∈ param.valuesIn text)
    : param.Whole value := by
  unfold valuesIn at member
  split at member
  · obtain ⟨valueTrimmed, undivided⟩ :=
      trimmed_of_mem_separatedValues param.separator_nonempty member
    exact ⟨valueTrimmed, fun _ => undivided⟩
  · rename_i single
    obtain rfl := List.mem_singleton.1 member
    exact ⟨trimmed, fun several => absurd several single⟩

namespace Keeps

theorem valuesFrom_eq (keeps : param.Keeps value) : param.valuesFrom value = [value] := by
  rw [valuesFrom, keeps.whole.valuesIn_eq]
  simp [keeps.selected]

theorem allows (keeps : param.Keeps value) : param.Allows value := by
  intro other member
  rw [keeps.whole.valuesIn_eq, List.mem_singleton] at member
  rw [member, keeps.selected]
  rfl

end Keeps

/-- A value that a text brought to a parameter is kept when it is given again. -/
theorem Copyable.keeps (copyable : param.Copyable) (trimmed : Trimmed text)
    (member : value ∈ param.valuesFrom text)
    : param.Keeps value := by
  obtain ⟨given, isGiven, selected⟩ := List.mem_filterMap.1 member
  refine ⟨?_, Choices.select?_of_select? selected⟩
  cases choices : param.choices with
  | none =>
      rw [choices] at selected
      obtain rfl : given = value := Option.some.inj selected
      exact whole_of_mem_valuesIn trimmed isGiven
  | some values =>
      rw [choices] at selected
      refine copyable.choices_whole value ?_
      rw [choices]
      exact List.mem_of_find?_eq_some selected

end Simple

end ArgBinding
