import ArgBinding.Datum
import ArgBinding.Text.Lowercase

/-! The values that a parameter may be restricted to. A value is compared with them ignoring case
and takes the spelling of the first that it equals.
-/

namespace ArgBinding

open ArgBinding.Text

/-- The values that a parameter may take, `none` where every value is allowed. -/
abbrev Choices := Option (List String)

/-- The error of taking a datum for choices that is no collection of values. -/
structure NotIterable where
  typeName : String
  deriving DecidableEq, Repr

namespace Choices

/-- The choices that a datum describes: those of a type, a single text, or the items of a list in
their plain spelling.
-/
def ofDatum : Datum → Except NotIterable Choices
  | .null => .ok none
  | .kind .truth => .ok (some ["true", "false"])
  | .kind (.enumeration e) => .ok (some e.members)
  | .text value => .ok (some [value])
  | .list items => .ok (some (items.map Datum.plain))
  | datum => .error ⟨datum.typeName⟩

/-- The datum that describes choices. -/
def toDatum : Choices → Datum
  | none => .null
  | some values => .list (values.map .text)

/-- The first choice that a value equals ignoring case. Without choices the value itself. -/
def select? (choices : Choices) (value : String) : Option String :=
  match choices with
  | none => some value
  | some values => values.find? fun choice => lower choice == lower value

/-- Choices that were read once are read again unchanged; induction on their values. -/
theorem ofDatum_toDatum (choices : Choices) : ofDatum choices.toDatum = .ok choices := by
  cases choices with
  | none => rfl
  | some values =>
      simp only [toDatum, ofDatum, List.map_map]
      congr
      induction values with
      | nil => rfl
      | cons value values ih => simp [Datum.plain, ih]

end Choices

/-- Whether a value spells out truth, ignoring case. No value is false. -/
def isTrue (value : Option String) : Bool :=
  match value with
  | some text => lower text == "true"
  | none => false

end ArgBinding
