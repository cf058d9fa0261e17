/-! Enumerations: named members with values. A name whose value an earlier member has is another
name of that member. All names of an enumeration are distinct.
-/

namespace ArgBinding

/-- An enumeration with each declared name and the name of the member it stands for, in the order
of declaration.
-/
structure Enumeration where
  name : String
  names : List (String × String)
  names_nodup : (names.map Prod.fst).Nodup
  deriving DecidableEq, Repr

namespace Enumeration

/-- The declared names with the names of the members they stand for, given when two values are the
same.
-/
def namesOf {α : Type} (same : α → α → Bool) (entries : List (String × α))
    : List (String × String) :=
  entries.map fun (name, value) =>
    (name, ((entries.find? fun earlier => same earlier.2 value).map Prod.fst).getD name)

/-- The enumeration of some names with values, if the names are distinct. -/
def ofEntries? {α : Type} (same : α → α → Bool) (name : String) (entries : List (String × α))
    : Option Enumeration :=
  if distinct : ((namesOf same entries).map Prod.fst).Nodup then
    some { name := name, names := namesOf same entries, names_nodup := distinct }
  else
    none

/-- The names of the members, in the order of declaration. -/
def members (enumeration : Enumeration) : List String :=
  (enumeration.names.filter fun (name, member) => name == member).map Prod.fst

/-- The member that a name stands for. -/
def find? (enumeration : Enumeration) (name : String) : Option String :=
  enumeration.names.lookup name

/-- A name that is declared with a member stands for it, since no name is declared twice; induction
on the names.
-/
theorem lookup_of_mem {names : List (String × String)} (distinct : (names.map Prod.fst).Nodup)
    {name member : String} (present : (name, member) ∈ names)
    : names.lookup name = some member := by
  induction names with
  | nil => cases present
  | cons first rest ih =>
      obtain ⟨other, stands⟩ := first
      simp only [List.map_cons, List.nodup_cons] at distinct
      rcases List.mem_cons.1 present with isFirst | later
      · cases isFirst
        simp
      · have differs : (name == other) = false := by
          apply beq_false_of_ne
          rintro rfl
          exact distinct.1 (List.mem_map.2 ⟨_, later, rfl⟩)
        simp only [List.lookup_cons, differs, ih distinct.2 later]

/-- The name of a member stands for the member itself. -/
theorem find?_of_mem_members {enumeration : Enumeration} {member : String}
    (present : member ∈ enumeration.members)
    : enumeration.find? member = some member := by
  simp only [members, List.mem_map, List.mem_filter] at present
  obtain ⟨⟨name, stands⟩, ⟨declared, same⟩, rfl⟩ := present
  simp only [beq_iff_eq] at same
  subst same
  exact lookup_of_mem enumeration.names_nodup declared

end Enumeration

end ArgBinding
