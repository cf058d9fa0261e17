/-! Cutting a text at a separator, and replacing one text by another. A separator is found from
left to right and never overlaps the one before.
-/

namespace ArgBinding.Text

/-- The piece up to the first separator and the pieces after it. The first argument counts the
characters still to pass over, those of a separator that was found.
-/
def cutFrom (separator : List Char) : Nat → List Char → List Char × List (List Char)
  | _, [] => ([], [])
  | skipped + 1, _ :: rest => cutFrom separator skipped rest
  | 0, c :: rest =>
      if separator.isPrefixOf (c :: rest) then
        let (piece, pieces) := cutFrom separator (separator.length - 1) rest
        ([], piece :: pieces)
      else
        let (piece, pieces) := cutFrom separator 0 rest
        (c :: piece, pieces)

/-- The pieces of a text between the separators in it, one more than there are separators. -/
def cut (separator cs : List Char) : List (List Char) :=
  let (piece, pieces) := cutFrom separator 0 cs
  piece :: pieces

/-- Every occurrence of one text replaced by another. The empty text occurs before each character
and at the end.
-/
def replaceAllChars (old new cs : List Char) : List Char :=
  if old.isEmpty then
    new ++ cs.flatMap fun c => c :: new
  else
    new.intercalate (cut old cs)

/-- Every occurrence of one text replaced by another. -/
def replaceAll (old new text : String) : String :=
  String.ofList (replaceAllChars old.toList new.toList text.toList)

-----------------------------------------------------------------------------------------
-- Laws of cutting
-----------------------------------------------------------------------------------------

/-- Joining several pieces puts a separator behind the first. -/
theorem intercalate_cons_cons (separator piece next : List Char) (pieces : List (List Char))
    : separator.intercalate (piece :: next :: pieces)
      = piece ++ separator ++ separator.intercalate (next :: pieces) := by
  simp [List.intercalate, List.intersperse]

/-- Joining the pieces gives back the characters that are not passed over; induction on the
characters.
-/
theorem intercalate_cutFrom {separator : List Char} (nonempty : separator ≠ []) (cs : List Char)
    (skipped : Nat)
    : separator.intercalate ((cutFrom separator skipped cs).1 :: (cutFrom separator skipped cs).2)
      = cs.drop skipped := by
  induction cs generalizing skipped with
  | nil => cases skipped <;> simp [cutFrom, List.intercalate]
  | cons c rest ih =>
      cases skipped with
      | succ skipped => simpa [cutFrom] using ih skipped
      | zero =>
          by_cases found : separator.isPrefixOf (c :: rest) = true
          · obtain ⟨tail, whole⟩ := List.isPrefixOf_iff_prefix.1 found
            have size : separator.length = separator.length - 1 + 1 := by
              have := List.length_pos_iff.2 nonempty
              omega
            have behind : rest.drop (separator.length - 1) = tail := by
              have : (c :: rest).drop separator.length = tail := by rw [← whole]; simp
              rwa [size, List.drop_succ_cons] at this
            simp only [cutFrom, found, if_true, intercalate_cons_cons, ih, behind, List.drop_zero]
            simpa using whole
          · simp [cutFrom, found, ih]

/-- Joining the pieces of a text gives the text back. -/
theorem intercalate_cut {separator : List Char} (nonempty : separator ≠ []) (cs : List Char)
    : separator.intercalate (cut separator cs) = cs :=
  intercalate_cutFrom nonempty cs 0

end ArgBinding.Text
