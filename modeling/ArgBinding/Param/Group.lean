import ArgBinding.Param.Notation

/-! Repeating groups. A group has a required parameter of a single value as its identity: each
argument that names it starts a repetition. The names in a group are distinct, so a name belongs to
at most one of its parameters.
-/

namespace ArgBinding

open ArgBinding.Text

/-- A group of parameters that are supplied together, any number of times. -/
structure Group where
  identity : Simple
  members : List Simple
  identity_required : identity.isRequired = true
  identity_single : identity.allowMultiple = false
  keys_nodup : ((identity :: members).map Simple.key).Nodup
  deriving DecidableEq

/-- A parameter: one that takes plain values or a group. -/
inductive Param where
  | simple (param : Simple)
  | repeating (group : Group)
  deriving DecidableEq

/-- What stands in a list of declarations: a parameter, or some other datum by mistake. -/
inductive Entry where
  | declared (param : Param)
  | other (datum : Datum)

namespace Group

/-- The parameters of the group, its identity first. -/
def params (group : Group) : List Simple :=
  group.identity :: group.members

/-- A group goes by the name of its identity. -/
def name (group : Group) : String :=
  group.identity.name

/-- The name by which the group is looked up. -/
def key (group : Group) : String :=
  group.identity.key

/-- The parameter of the group that a name means, in any case. -/
def find? (group : Group) (name : Option String) : Option Simple :=
  match name with
  | none => none
  | some name => group.params.find? fun param => param.key == lower name

/-- A name means a parameter of the group that has its key. -/
theorem key_of_find? {group : Group} {name : String} {param : Simple}
    (h : group.find? (some name) = some param)
    : param ∈ group.params ∧ param.key = lower name := by
  simp only [find?] at h
  exact ⟨List.mem_of_find?_eq_some h, by simpa using List.find?_some h⟩

/-- The notation of a group. -/
def spelled (group : Group) : String :=
  "RepeatingArgGroup(" ++ String.intercalate ", " (group.params.map Simple.spelled) ++ ")"

end Group

/-- The notation of a parameter. -/
def Param.spelled : Param → String
  | .simple param => param.spelled
  | .repeating group => group.spelled

/-- The notation of what stands in a list of declarations. -/
def Entry.spelled : Entry → String
  | .declared param => param.spelled
  | .other datum => datum.spelled

namespace Group

/-- The group that has an identity and no members. -/
def ofIdentity (entry : Entry) : Except SchemaError Group :=
  match entry with
  | .declared (.simple identity) =>
      if required : identity.isRequired = true then
        if single : identity.allowMultiple = false then
          .ok {
            identity := identity
            members := []
            identity_required := required
            identity_single := single
            keys_nodup := by simp
          }
        else
          .error (.identityMultiple identity.name)
      else
        .error .identityNotRequired
  | _ => .error .identityNotRequired

/-- The group with one more member behind the others. -/
def extend (group : Group) (entry : Entry) : Except SchemaError Group :=
  match entry with
  | .declared (.repeating member) => .error (.nestedGroup member.name group.name)
  | .other datum => .error (.unsupportedMember datum.spelled group.name)
  | .declared (.simple member) =>
      if known : member.key ∈ group.params.map Simple.key then
        .error (.duplicateMember member.name group.name)
      else
        .ok {
          group with
          members := group.members ++ [member]
          keys_nodup := by
            have distinct := group.keys_nodup
            simp only [params, List.map_cons, List.mem_cons, not_or] at known
            rw [← List.cons_append, List.map_append]
            refine List.nodup_append.2 ⟨distinct, by simp, ?_⟩
            intro key present other isMember
            simp only [List.map_cons, List.map_nil, List.mem_singleton] at isMember
            simp only [List.map_cons, List.mem_cons] at present
            subst isMember
            rintro rfl
            rcases present with first | later
            · exact known.1 first
            · exact known.2 later
        }

/-- The group with an identity and members, which are checked in order. -/
def declare (identity : Entry) (members : List Entry) : Except SchemaError Group := do
  let group ← ofIdentity identity
  members.foldlM extend group

end Group

namespace Param

/-- The name of a parameter. -/
def name : Param → String
  | simple param => param.name
  | repeating group => group.name

/-- The name by which a parameter is looked up. -/
def key : Param → String
  | simple param => param.key
  | repeating group => group.key

/-- Whether a value must be supplied. A group may have no repetition. -/
def isRequired : Param → Bool
  | simple param => param.isRequired
  | repeating _ => false

instance : Hashable Param where
  hash
    | simple param => mixHash 1 (hash param)
    | repeating group => mixHash 2 (hash group.params)

end Param

namespace Entry

/-- Whether two entries are the same: parameters are compared by all that declares them, and data by
their value. What is no number has no value and differs from every entry.
-/
def same : Entry → Entry → Bool
  | .declared param, .declared second => decide (param = second)
  | .other (.real .nan), _ => false
  | .other datum, .other second => datum.same second
  | _, _ => false

instance : Hashable Entry where
  hash
    | .declared param => hash param
    | .other datum => hash datum

/-- Entries that are the same have the same hash; witness: the cases of comparison. -/
theorem hash_of_same {entry second : Entry} (h : same entry second = true)
    : hash entry = hash second := by
  unfold same at h
  split at h
  · rw [of_decide_eq_true h]
  · cases h
  · exact Datum.hash_of_same h
  · cases h

end Entry

end ArgBinding
