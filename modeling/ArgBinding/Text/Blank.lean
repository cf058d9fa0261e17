import ArgBinding.Text.CharRange

/-! White space and trimming. Trimming removes white space from both ends of a text and nothing
else: a trimmed text neither begins nor ends with a blank, and trimming it again changes nothing.
-/

namespace ArgBinding.Text

/-- The white space characters: the ASCII controls from tab to carriage return, the four
separators below the space, the space, next line, and the Unicode spaces and line separators.
-/
def blankRanges : List CharRange :=
  [
    ⟨0x9, 0xd⟩, ⟨0x1c, 0x20⟩, ⟨0x85, 0x85⟩, ⟨0xa0, 0xa0⟩, ⟨0x1680, 0x1680⟩,
    ⟨0x2000, 0x200a⟩, ⟨0x2028, 0x2029⟩, ⟨0x202f, 0x202f⟩, ⟨0x205f, 0x205f⟩, ⟨0x3000, 0x3000⟩
  ]

/-- Whether a character is white space. -/
def isBlank (c : Char) : Bool :=
  inRanges blankRanges c

/-- The characters without the blanks that the test accepts at either end. -/
def trimWith (blank : Char → Bool) (cs : List Char) : List Char :=
  ((cs.dropWhile blank).reverse.dropWhile blank).reverse

/-- The characters without the white space at either end. -/
def trimChars (cs : List Char) : List Char :=
  trimWith isBlank cs

/-- The text without the white space at either end. -/
def trim (text : String) : String :=
  String.ofList (trimChars text.toList)

/-- A text that trimming leaves as it is. -/
def Trimmed (text : String) : Prop :=
  trim text = text

instance (text : String) : Decidable (Trimmed text) :=
  inferInstanceAs (Decidable (trim text = text))

-----------------------------------------------------------------------------------------
-- Laws of trimming
-----------------------------------------------------------------------------------------

/-- A head that survives skipping is no blank; induction on the characters. -/
theorem head_dropWhile_not {blank : Char → Bool} {cs rest : List Char} {c : Char}
    (h : cs.dropWhile blank = c :: rest)
    : blank c = false := by
  induction cs with
  | nil => simp at h
  | cons d ds ih =>
      by_cases hd : blank d = true
      · exact ih (by simpa [List.dropWhile_cons, hd] using h)
      · simp only [List.dropWhile_cons, hd] at h
        simp_all

/-- Skipping blanks at the front is idempotent; induction on the characters. -/
theorem dropWhile_dropWhile (blank : Char → Bool) (cs : List Char)
    : (cs.dropWhile blank).dropWhile blank = cs.dropWhile blank := by
  induction cs with
  | nil => rfl
  | cons c cs ih =>
      by_cases hc : blank c = true <;> simp [hc, ih]

/-- Trimming is idempotent; witness: what is left in front of the last character that is no blank
begins with the same character.
-/
theorem trimChars_trimChars (cs : List Char) : trimChars (trimChars cs) = trimChars cs := by
  have front : ((cs.dropWhile isBlank).reverse.dropWhile isBlank).reverse.dropWhile isBlank
      = ((cs.dropWhile isBlank).reverse.dropWhile isBlank).reverse := by
    generalize hfront : cs.dropWhile isBlank = front
    cases hback : (front.reverse.dropWhile isBlank).reverse with
    | nil => rfl
    | cons c rest =>
        have fromFront : (c :: rest) <+: front := by
          rw [← hback, ← List.reverse_suffix, List.reverse_reverse]
          exact List.dropWhile_suffix _
        obtain ⟨tail, rfl⟩ := fromFront
        have := head_dropWhile_not hfront
        simp [this]
  simp only [trimChars, trimWith, front, List.reverse_reverse, dropWhile_dropWhile]

/-- What trimming leaves is trimmed. -/
theorem trimmed_trim (text : String) : Trimmed (trim text) := by
  simp [Trimmed, trim, trimChars_trimChars]

end ArgBinding.Text
