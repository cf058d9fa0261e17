import ArgBinding.Text.Lowercase.Table

/-! Lower case of a text. Letters are mapped one by one, with two exceptions: the dotted capital I
becomes two characters, and a capital sigma at the end of a word becomes a final sigma.
-/

namespace ArgBinding.Text

/-- The lower case of a character on its own. -/
def lowerChar (c : Char) : List Char :=
  if c.toNat < 0x80 then
    [c.toLower]
  else if c.toNat = 0x130 then
    ['i', Char.ofNat 0x307]
  else
    match lowercaseRuns.find? (·.covers c) with
    | some run => [run.apply c]
    | none => [c]

/-- Whether a character is skipped when the neighbour of a sigma is looked for. -/
def isCaseIgnorable (c : Char) : Bool :=
  inRanges caseIgnorableRanges c

/-- Whether a character is a letter with a case. -/
def isCased (c : Char) : Bool :=
  inRanges casedRanges c

/-- Whether a letter with a case comes next, skipped characters aside. -/
def casedFollows (cs : List Char) : Bool :=
  match cs.dropWhile isCaseIgnorable with
  | [] => false
  | c :: _ => isCased c

/-- Whether a letter with a case stands last, given whether one stood last before this character.
-/
def casedAfter (before : Bool) (c : Char) : Bool :=
  if isCaseIgnorable c then before else isCased c

/-- Lower case of the characters of a text, given whether a letter with a case stands last in
what came before. A capital sigma is final after such a letter and before none.
-/
def lowerFrom (before : Bool) : List Char → List Char
  | [] => []
  | c :: rest =>
      let lowered :=
        if c.toNat = 0x3a3 then
          [Char.ofNat (if before && !casedFollows rest then 0x3c2 else 0x3c3)]
        else
          lowerChar c
      lowered ++ lowerFrom (casedAfter before c) rest

/-- The lower case of a text. -/
def lower (text : String) : String :=
  String.ofList (lowerFrom false text.toList)

end ArgBinding.Text
