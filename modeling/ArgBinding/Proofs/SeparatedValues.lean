import ArgBinding.Proofs.Rendering
import Mathlib.Data.List.DropRight

/-! Values that are separated and joined again. Cutting a text loses nothing, so the values of a
text tell all of it but the empty pieces at its end and the white space around the others. Trimmed
values without the separator are separated as they were joined.
-/

namespace ArgBinding.Text

-----------------------------------------------------------------------------------------
-- Cutting what was joined
-----------------------------------------------------------------------------------------

/-- The characters to pass over are passed over, by induction on them. -/
theorem cutFrom_length_append (separator skipped rest : List Char)
    : cutFrom separator skipped.length (skipped ++ rest) = cutFrom separator 0 rest := by
  induction skipped with
  | nil => rfl
  | cons c skipped ih => exact ih

/-- A separator in front ends an empty piece. -/
theorem cut_separator_append {separator : List Char} (nonempty : separator ≠ [])
    (rest : List Char)
    : cut separator (separator ++ rest) = [] :: cut separator rest := by
  obtain ⟨c, tail, rfl⟩ := List.exists_cons_of_ne_nil nonempty
  have found : (c :: tail).isPrefixOf (c :: (tail ++ rest)) = true :=
    List.isPrefixOf_iff_prefix.2 (List.prefix_append (c :: tail) rest)
  simp only [cut, List.cons_append, cutFrom, if_pos found, List.length_cons, Nat.add_sub_cancel,
    cutFrom_length_append]

/-- Empty pieces are joined to separators only, by induction on their number. -/
theorem intercalate_replicate_nil (separator : List Char) (count : Nat)
    : separator.intercalate (List.replicate (count + 1) [])
      = (List.replicate count separator).flatten := by
  induction count with
  | zero => exact List.intercalate_singleton
  | succ count ih =>
      rw [List.replicate_succ, List.replicate_succ, List.intercalate_cons_cons,
        ← List.replicate_succ, ih, List.replicate_succ, List.flatten_cons, List.nil_append]

/-- All pieces of a text are empty exactly when it consists of separators, one less than there are
pieces. Induction on their number.
-/
theorem cut_eq_replicate_iff {separator cs : List Char} (nonempty : separator ≠ [])
    (count : Nat)
    : cut separator cs = List.replicate (count + 1) []
      ↔ cs = (List.replicate count separator).flatten := by
  constructor
  · intro pieces
    rw [← intercalate_cut nonempty cs, pieces, intercalate_replicate_nil]
  · rintro rfl
    induction count with
    | zero => rfl
    | succ count ih =>
        rw [List.replicate_succ, List.flatten_cons, cut_separator_append nonempty, ih]
        rfl

/-- Cutting at one character is splitting on it, by induction on the characters. -/
theorem cut_singleton (c : Char) (cs : List Char) : cut [c] cs = cs.splitOn c := by
  induction cs with
  | nil => rfl
  | cons d rest ih =>
      rw [List.splitOn, List.splitOnP_cons_eq_if_modifyHead, ← List.splitOn,
        ← ih]
      by_cases same : d = c
      · simp [cut, cutFrom, same]
      · simp [cut, cutFrom, same, Ne.symm same]

-----------------------------------------------------------------------------------------
-- Empty pieces at the end
-----------------------------------------------------------------------------------------

section TrailingEmpty

variable {pieces : List (List Char)}

theorem dropTrailingEmpty_of_length (several : 1 < pieces.length)
    : dropTrailingEmpty pieces = pieces.rdropWhile List.isEmpty :=
  if_pos several

/-- What is dropped at the end are empty pieces. -/
theorem exists_dropTrailingEmpty_append (pieces : List (List Char))
    : ∃ count, dropTrailingEmpty pieces ++ List.replicate count [] = pieces := by
  by_cases several : 1 < pieces.length
  · have dropped : pieces.rtakeWhile List.isEmpty
        = List.replicate (pieces.rtakeWhile List.isEmpty).length [] := by
      refine List.eq_replicate_iff.2 ⟨rfl, ?_⟩
      intro piece member
      exact List.isEmpty_iff.1 (List.mem_rtakeWhile_imp member)
    refine ⟨(pieces.rtakeWhile List.isEmpty).length, ?_⟩
    rw [dropTrailingEmpty_of_length several, ← dropped, List.rdropWhile_append_rtakeWhile]
  · exact ⟨0, by rw [dropTrailingEmpty, if_neg several]; exact List.append_nil pieces⟩

/-- All pieces are dropped exactly when there are several and all of them are empty. -/
theorem dropTrailingEmpty_eq_nil_iff (nonempty : pieces ≠ [])
    : dropTrailingEmpty pieces = [] ↔ ∃ count, pieces = List.replicate (count + 2) [] := by
  by_cases several : 1 < pieces.length
  · rw [dropTrailingEmpty_of_length several, List.rdropWhile_eq_nil_iff]
    simp only [List.isEmpty_iff, List.eq_replicate_iff]
    constructor
    · exact fun empty => ⟨pieces.length - 2, by omega, empty⟩
    · exact fun ⟨_, _, empty⟩ => empty
  · rw [dropTrailingEmpty, if_neg several]
    refine ⟨fun none => absurd none nonempty, ?_⟩
    rintro ⟨count, rfl⟩
    simp at several

/-- Where something is left, the last piece is not empty, or it is the only one there was. -/
theorem dropTrailingEmpty_cases (pieces : List (List Char))
    : dropTrailingEmpty pieces = []
      ∨ (∃ last ∈ (dropTrailingEmpty pieces).getLast?, last ≠ [])
      ∨ pieces = [[]] ∧ dropTrailingEmpty pieces = [[]] := by
  by_cases several : 1 < pieces.length
  · rw [dropTrailingEmpty_of_length several]
    by_cases none : pieces.rdropWhile List.isEmpty = []
    · exact Or.inl none
    · have ends := List.rdropWhile_last_not List.isEmpty pieces none
      refine Or.inr (Or.inl ⟨_, List.getLast?_eq_some_getLast none, ?_⟩)
      simpa using ends
  · rw [dropTrailingEmpty, if_neg several]
    match pieces, several with
    | [], _ => exact Or.inl rfl
    | [[]], _ => exact Or.inr (Or.inr ⟨rfl, rfl⟩)
    | [c :: piece], _ => exact Or.inr (Or.inl ⟨c :: piece, rfl, List.cons_ne_nil c piece⟩)
    | _ :: _ :: _, several => simp at several

theorem dropTrailingEmpty_of_last {last : List Char} (isLast : last ∈ pieces.getLast?)
    (nonempty : last ≠ [])
    : dropTrailingEmpty pieces = pieces := by
  unfold dropTrailingEmpty
  split
  · refine List.rdropWhile_eq_self_iff.2 ?_
    intro present
    rw [List.getLast?_eq_some_getLast present, Option.mem_some_iff] at isLast
    rw [isLast]
    simpa using nonempty
  · rfl

end TrailingEmpty

-----------------------------------------------------------------------------------------
-- Texts
-----------------------------------------------------------------------------------------

/-- The pieces between the separators of a text, up to the empty ones at its end. The empty text is
one empty piece.
-/
structure PiecesOf (separator text : String) (pieces : List String) : Prop where
  whole : ∃ count, text = separator.intercalate (pieces ++ List.replicate count "")
  absent : ∀ piece ∈ pieces, ¬ separator.toList <:+: piece.toList
  ended
    : pieces = []
      ∨ (∃ last ∈ pieces.getLast?, last ≠ "")
      ∨ text = "" ∧ pieces = [""]

section Texts

variable {separator : String}

/-- The pieces from which the values of a text are made are those between its separators. -/
theorem piecesOf_dropTrailingEmpty (nonempty : separator ≠ "") (text : String)
    : PiecesOf separator text
        ((dropTrailingEmpty (cut separator.toList text.toList)).map String.ofList) := by
  have present : separator.toList ≠ [] := mt String.toList_eq_nil_iff.1 nonempty
  have joined := intercalate_cut present text.toList
  refine ⟨?_, ?_, ?_⟩
  · obtain ⟨count, whole⟩ := exists_dropTrailingEmpty_append (cut separator.toList text.toList)
    refine ⟨count, String.toList_inj.1 ?_⟩
    rw [String.toList_intercalate, List.map_append, List.map_map, List.map_replicate]
    conv_lhs => rw [← joined, ← whole]
    simp [Function.comp_def]
  · intro piece member
    obtain ⟨characters, isPiece, rfl⟩ := List.mem_map.1 member
    rw [String.toList_ofList]
    exact absent_of_mem_cutFrom present (mem_of_mem_dropTrailingEmpty isPiece)
  · rcases dropTrailingEmpty_cases (cut separator.toList text.toList) with none
      | ⟨last, isLast, filled⟩ | ⟨only, same⟩
    · exact Or.inl (List.map_eq_nil_iff.2 none)
    · refine Or.inr (Or.inl ⟨String.ofList last, ?_, by simpa using filled⟩)
      rw [List.getLast?_map]
      exact Option.mem_map_of_mem String.ofList isLast
    · rw [only, List.intercalate_singleton] at joined
      exact Or.inr (Or.inr ⟨String.toList_eq_nil_iff.1 joined.symm, by rw [same]; rfl⟩)

/-- A text has no values exactly when it is the separator, repeated once or more. -/
theorem separatedValues_eq_nil_iff (nonempty : separator ≠ "") {text : String}
    : separatedValues separator text = []
      ↔ ∃ count, text = String.join (List.replicate (count + 1) separator) := by
  have present : separator.toList ≠ [] := mt String.toList_eq_nil_iff.1 nonempty
  have some : cut separator.toList text.toList ≠ [] := List.cons_ne_nil _ _
  rw [separatedValues, List.map_eq_nil_iff, dropTrailingEmpty_eq_nil_iff some]
  refine exists_congr fun count => ?_
  rw [cut_eq_replicate_iff present, ← String.toList_inj, String.toList_join,
    List.flatMap_def, List.map_replicate]

/-- Trimmed values that do not hold the character between them are separated as they were joined.
-/
theorem separatedValues_intercalate {values : List String} {last : String}
    (single : separator.length = 1)
    (whole : ∀ value ∈ values, Trimmed value ∧ ¬ separator.toList <:+: value.toList)
    (isLast : last ∈ values.getLast?) (filled : last ≠ "")
    : separatedValues separator (separator.intercalate values) = values := by
  obtain ⟨c, isChar⟩ : ∃ c, separator.toList = [c] :=
    List.length_eq_one_iff.1 (String.length_toList.trans single)
  have present : values ≠ [] := by
    rintro rfl
    simp at isLast
  have pieces : cut separator.toList (separator.intercalate values).toList
      = values.map String.toList := by
    rw [String.toList_intercalate, isChar, cut_singleton]
    refine List.splitOn_intercalate c ?_ (mt List.map_eq_nil_iff.1 present)
    intro piece member
    obtain ⟨value, isValue, rfl⟩ := List.mem_map.1 member
    have absent := (whole value isValue).2
    rwa [isChar, List.singleton_infix_iff] at absent
  have isLastPiece : last.toList ∈ (values.map String.toList).getLast? := by
    rw [List.getLast?_map]
    exact Option.mem_map_of_mem String.toList isLast
  rw [separatedValues, pieces,
    dropTrailingEmpty_of_last isLastPiece (mt String.toList_eq_nil_iff.1 filled), List.map_map]
  conv_rhs => rw [← List.map_id values]
  exact List.map_congr_left fun value isValue => (whole value isValue).1

/-- A text is separated at a separator that is not empty into the trimmed pieces between its
separators, up to the empty ones at its end. So the values are trimmed and do not hold the
separator, and there are none exactly when the text is the separator, repeated once or more.
Conversely, trimmed values without the separator, the last of them not empty, are separated as they
were joined where the separator is one character. Witness: cutting a text and joining its pieces.
-/
theorem separate_keeps_values (nonempty : separator ≠ "")
    : (∀ text,
        ∃ values,
          separate separator text = .ok values
          ∧ (∃ pieces, PiecesOf separator text pieces ∧ values = pieces.map trim)
          ∧ (∀ value ∈ values, Trimmed value ∧ ¬ separator.toList <:+: value.toList)
          ∧ (values = []
            ↔ ∃ count, text = String.join (List.replicate (count + 1) separator)))
      ∧ ∀ values : List String,
          separator.length = 1
          → (∀ value ∈ values, Trimmed value ∧ ¬ separator.toList <:+: value.toList)
          → (∃ last ∈ values.getLast?, last ≠ "")
          → separate separator (separator.intercalate values) = .ok values := by
  have separated (text : String)
      : separate separator text = .ok (separatedValues separator text) := if_neg nonempty
  constructor
  · intro text
    refine ⟨separatedValues separator text, separated text, ?_,
      fun value => trimmed_of_mem_separatedValues nonempty, separatedValues_eq_nil_iff nonempty⟩
    refine ⟨_, piecesOf_dropTrailingEmpty nonempty text, ?_⟩
    rw [separatedValues, List.map_map]
    refine List.map_congr_left fun piece _ => ?_
    rw [Function.comp_apply, trim, String.toList_ofList]
  · intro values single whole ended
    obtain ⟨last, isLast, filled⟩ := ended
    rw [separated, separatedValues_intercalate single whole isLast filled]

/-- A separator of two equal letters is found from the left, so the third letter stays with the
piece behind it. Values between which blanks stand are found again, an empty one among them.
-/
theorem letters_and_blanks_keep_values
    : "aa" ≠ ""
      ∧ (∃ pieces,
          PiecesOf "aa" " x aaa y aaaa" pieces ∧ ["x", "a y"] = pieces.map trim)
      ∧ (∃ count, "aaaa" = String.join (List.replicate (count + 1) "aa"))
      ∧ " ".length = 1
      ∧ (∀ value ∈ ["x", "", "y"], Trimmed value ∧ ¬ " ".toList <:+: value.toList)
      ∧ separate " " (" ".intercalate ["x", "", "y"]) = .ok ["x", "", "y"] := by
  obtain ⟨letters, -⟩ := separate_keeps_values (show "aa" ≠ "" by decide)
  obtain ⟨-, blanks⟩ := separate_keeps_values (show " " ≠ "" by decide)
  have whole : ∀ value ∈ ["x", "", "y"], Trimmed value ∧ ¬ " ".toList <:+: value.toList := by
    decide
  refine ⟨by decide, ?_, ?_, by decide, whole, blanks _ (by decide) whole ⟨"y", rfl, by decide⟩⟩
  · obtain ⟨values, separated, pieces, -⟩ := letters " x aaa y aaaa"
    have isValues : separate "aa" " x aaa y aaaa" = .ok ["x", "a y"] := by decide +kernel
    cases separated.symm.trans isValues
    exact pieces
  · obtain ⟨values, separated, -, -, none⟩ := letters "aaaa"
    have isValues : separate "aa" "aaaa" = .ok [] := by decide +kernel
    cases separated.symm.trans isValues
    exact none.1 rfl

end Texts

end ArgBinding.Text
