import ArgBinding.Proofs.Declarations

/-! Which groups can be declared. A group is made exactly of an identity that is required and takes
a single value, and of plain parameters with keys of their own; each key then leads to the one
parameter that has it. Otherwise the identity is refused first, and then the first member that
cannot be put behind those in front of it.
-/

namespace ArgBinding

open ArgBinding.Text

/-- The declaration of a plain parameter. -/
def Simple.declared (param : Simple) : Entry :=
  .declared (.simple param)

theorem Simple.declared_injective : Function.Injective Simple.declared :=
  fun _ _ same => Param.simple.inj (Entry.declared.inj same)

/-- Parameters that make a group, the first of them as its identity. -/
structure Groupable (identity : Simple) (members : List Simple) : Prop where
  required : identity.isRequired = true
  single : identity.allowMultiple = false
  keys_nodup : ((identity :: members).map Simple.key).Nodup

/-- An entry cannot be the identity of a group, with the error that says so. Whether it is required
is looked at before the number of its values.
-/
inductive Entry.RejectedIdentity : Entry → SchemaError → Prop
  | unsupported (datum : Datum)
    : RejectedIdentity (.other datum) .identityNotRequired
  | group (group : Group)
    : RejectedIdentity (.declared (.repeating group)) .identityNotRequired
  | optional {param : Simple} (optional : param.isRequired = false)
    : RejectedIdentity param.declared .identityNotRequired
  | multiple {param : Simple} (required : param.isRequired = true)
    (several : param.allowMultiple = true)
    : RejectedIdentity param.declared (.identityMultiple param.name)

/-- An entry cannot be put behind the identity and some members of a group, with the error that says
so.
-/
inductive Entry.RejectedMember (identity : Simple) (before : List Simple)
    : Entry → SchemaError → Prop
  | nested (group : Group)
    : RejectedMember identity before (.declared (.repeating group))
        (.nestedGroup group.name identity.name)
  | unsupported (datum : Datum)
    : RejectedMember identity before (.other datum)
        (.unsupportedMember datum.spelled identity.name)
  | repeated {member earlier : Simple} (isBefore : earlier ∈ identity :: before)
    (same : earlier.key = member.key)
    : RejectedMember identity before member.declared
        (.duplicateMember member.name identity.name)

namespace Group

variable {group final : Group} {entry identity : Entry} {members : List Entry} {e : SchemaError}

theorem groupable (group : Group) : Groupable group.identity group.members :=
  ⟨group.identity_required, group.identity_single, group.keys_nodup⟩

/-- The declarations of the parameters of a group, that of its identity first. -/
def entries (group : Group) : List Entry :=
  group.params.map Simple.declared

theorem entries_injective : Function.Injective entries := by
  intro group other same
  have params : group.params = other.params := Simple.declared_injective.list_map same
  cases group
  cases other
  obtain ⟨rfl, rfl⟩ := List.cons.inj params
  rfl

-----------------------------------------------------------------------------------------
-- The identity
-----------------------------------------------------------------------------------------

theorem ofIdentity_eq_error_iff
    : ofIdentity entry = .error e ↔ entry.RejectedIdentity e := by
  constructor
  · intro refused
    cases entry with
    | other datum =>
        cases refused
        exact .unsupported datum
    | declared param =>
        cases param with
        | repeating group =>
            cases refused
            exact .group group
        | simple param =>
            dsimp only [ofIdentity] at refused
            split at refused
            · rename_i required
              split at refused
              · cases refused
              · rename_i several
                cases refused
                exact .multiple required (by simpa using several)
            · rename_i optional
              cases refused
              exact .optional (by simpa using optional)
  · intro rejected
    cases rejected with
    | unsupported datum => rfl
    | group group => rfl
    | optional optional =>
        dsimp only [Simple.declared, ofIdentity]
        rw [dif_neg (by simp [optional])]
    | multiple required several =>
        dsimp only [Simple.declared, ofIdentity]
        rw [dif_pos required, dif_neg (by simp [several])]

theorem ofIdentity_eq_ok_iff : ofIdentity entry = .ok group ↔ group.entries = [entry] := by
  constructor
  · intro accepted
    unfold ofIdentity at accepted
    split at accepted
    · split at accepted
      · split at accepted
        · cases accepted
          rfl
        · cases accepted
      · cases accepted
    · cases accepted
  · intro whole
    obtain ⟨isIdentity, none⟩ := List.cons.inj whole
    obtain rfl : group.identity.declared = entry := isIdentity
    dsimp only [Simple.declared, ofIdentity]
    rw [dif_pos group.identity_required, dif_pos group.identity_single]
    refine congrArg Except.ok (entries_injective ?_)
    exact whole.symm

-----------------------------------------------------------------------------------------
-- The members
-----------------------------------------------------------------------------------------

/-- An entry is refused behind the parameters of a group exactly when it cannot be put there. -/
theorem extend_eq_error_iff
    : group.extend entry = .error e ↔ entry.RejectedMember group.identity group.members e := by
  constructor
  · intro refused
    cases entry with
    | other datum =>
        cases refused
        exact .unsupported datum
    | declared param =>
        cases param with
        | repeating nested =>
            cases refused
            exact .nested nested
        | simple member =>
            dsimp only [extend] at refused
            split at refused
            · rename_i known
              obtain ⟨earlier, isBefore, same⟩ := List.mem_map.1 known
              cases refused
              exact .repeated isBefore same
            · cases refused
  · intro rejected
    cases rejected with
    | nested => rfl
    | unsupported => rfl
    | @repeated member earlier isBefore same =>
        have known : member.key ∈ group.params.map Simple.key :=
          List.mem_map.2 ⟨earlier, isBefore, same⟩
        dsimp only [Simple.declared, extend]
        rw [dif_pos known]
        rfl

/-- One more entry is accepted exactly when a group with it behind the others exists. -/
theorem extend_eq_ok_iff
    : group.extend entry = .ok final ↔ final.entries = group.entries ++ [entry] := by
  constructor
  · intro accepted
    cases entry with
    | other datum => cases accepted
    | declared param =>
        cases param with
        | repeating nested => cases accepted
        | simple member =>
            dsimp only [extend] at accepted
            split at accepted
            · cases accepted
            · cases accepted
              simp [entries, params, Simple.declared]
  · intro whole
    obtain ⟨member, rfl, longer⟩ := (map_eq_map_concat_iff Simple.declared_injective).1 whole
    have fresh : member.key ∉ group.params.map Simple.key := by
      intro known
      have distinct := final.params_keys_nodup
      rw [longer, List.map_append, List.nodup_append] at distinct
      exact distinct.2.2 member.key known member.key (by simp) rfl
    dsimp only [Simple.declared, extend]
    rw [dif_neg fresh]
    refine congrArg Except.ok (entries_injective ?_)
    rw [whole]
    simp [entries, params]

/-- The entries of a group up to one of its members are those of a group. -/
theorem exists_entries_eq_concat {last : Group} {after : List Entry}
    (whole : last.entries = group.entries ++ entry :: after)
    : ∃ next : Group, next.entries = group.entries ++ [entry] := by
  have prefixOf := List.take_sublist group.entries.length last.members
  let next : Group := {
    last with
    members := last.members.take group.entries.length
    keys_nodup := last.keys_nodup.sublist ((prefixOf.cons_cons last.identity).map Simple.key)
  }
  refine ⟨next, ?_⟩
  calc next.entries
      = (last.params.take (group.entries.length + 1)).map Simple.declared := rfl
    _ = last.entries.take (group.entries.length + 1) := List.map_take
    _ = group.entries ++ [entry] := by
        rw [whole, List.take_length_add_append]
        rfl

-----------------------------------------------------------------------------------------
-- The whole declaration
-----------------------------------------------------------------------------------------

/-- A group is declared exactly by the declarations of its parameters. -/
theorem declare_eq_ok_iff
    : declare identity members = .ok group ↔ group.entries = identity :: members := by
  rw [declare, except_bind_eq_ok_iff]
  simp only [ofIdentity_eq_ok_iff,
    foldlM_eq_ok_iff_shown entries_injective extend_eq_ok_iff exists_entries_eq_concat]
  constructor
  · intro h
    rcases h with ⟨first, isFirst, whole⟩
    rw [whole, isFirst]
    rfl
  · intro whole
    obtain ⟨isIdentity, -⟩ := List.cons.inj whole
    obtain rfl : group.identity.declared = identity := isIdentity
    let alone : Group := { group with members := [], keys_nodup := by simp }
    exact ⟨alone, rfl, whole⟩

/-- The declarations of an identity and members that make a group declare it. -/
theorem exists_declare_eq_ok_iff
    : (∃ group, declare identity members = .ok group)
      ↔ ∃ first others,
          identity = first.declared
          ∧ members = others.map Simple.declared
          ∧ Groupable first others := by
  simp only [declare_eq_ok_iff]
  constructor
  · intro h
    rcases h with ⟨group, whole⟩
    obtain ⟨isIdentity, areMembers⟩ := List.cons.inj whole
    exact ⟨group.identity, group.members, isIdentity.symm, areMembers.symm, group.groupable⟩
  · intro h
    rcases h with ⟨first, others, rfl, rfl, required, single, distinct⟩
    exact ⟨{
      identity := first
      members := others
      identity_required := required
      identity_single := single
      keys_nodup := distinct
    }, rfl⟩

/-- A declaration fails on the identity, or else on the first member that cannot be put behind those
in front of it.
-/
theorem declare_eq_error_iff
    : declare identity members = .error e
      ↔ identity.RejectedIdentity e
        ∨ ∃ first before member after,
            identity = first.declared
            ∧ members = before.map Simple.declared ++ member :: after
            ∧ Groupable first before
            ∧ member.RejectedMember first before e := by
  rw [declare, except_bind_eq_error_iff, ofIdentity_eq_error_iff]
  refine or_congr_right ?_
  constructor
  · intro h
    rcases h with ⟨alone, isAlone, fails⟩
    obtain ⟨before, member, after, reached, rfl, run, refused⟩ := foldlM_eq_error_iff.1 fails
    have declared : declare identity before = .ok reached :=
      except_bind_eq_ok_iff.2 ⟨alone, isAlone, run⟩
    obtain ⟨rfl, rfl⟩ := List.cons.inj (declare_eq_ok_iff.1 declared)
    exact ⟨reached.identity, reached.members, member, after, rfl, rfl, reached.groupable,
      extend_eq_error_iff.1 refused⟩
  · intro h
    rcases h with ⟨first, before, member, after, rfl, rfl, groupable, rejected⟩
    obtain ⟨reached, declared⟩ := exists_declare_eq_ok_iff.2 ⟨first, before, rfl, rfl, groupable⟩
    obtain ⟨alone, isAlone, run⟩ := except_bind_eq_ok_iff.1 declared
    have whole := declare_eq_ok_iff.1 declared
    obtain ⟨rfl, rfl⟩ : reached.identity = first ∧ reached.members = before :=
      List.cons.inj (Simple.declared_injective.list_map whole)
    exact ⟨alone, isAlone, foldlM_eq_error_iff.2
      ⟨_, member, after, reached, rfl, run, extend_eq_error_iff.2 rejected⟩⟩

/-- A group finds the only parameter that has the key of a name, or nothing when none has it. -/
theorem find?_only (group : Group) (name : String)
    : match group.find? (some name) with
      | some param =>
          param ∈ group.params
          ∧ param.key = lower name
          ∧ ∀ other ∈ group.params, other.key = lower name → other = param
      | none => ∀ param ∈ group.params, param.key ≠ lower name := by
  cases found : group.find? (some name) with
  | none =>
      intro param isParam key
      rw [find?_of_key isParam key.symm] at found
      cases found
  | some param =>
      obtain ⟨isParam, key⟩ := key_of_find? found
      refine ⟨isParam, key, ?_⟩
      intro other isOther same
      exact eq_of_key isOther isParam (same.trans key.symm)

/-- A group is declared exactly by an identity that is required and takes a single value and by
plain members, all with keys of their own. The group then has the identity and the members as its
parameters, in order, and finds for each name the only one that has its key. Otherwise the identity
is refused, or else the first member that cannot be put behind those in front of it. Witness:
checking the members one by one, each behind a group.
-/
theorem declare_accepts_groupable (identity : Entry) (members : List Entry)
    : ((∃ group, declare identity members = .ok group)
        ↔ ∃ first others,
            identity = first.declared
            ∧ members = others.map Simple.declared
            ∧ Groupable first others)
      ∧ (∀ first others group,
          identity = first.declared
          → members = others.map Simple.declared
          → declare identity members = .ok group
          → group.params = first :: others
            ∧ ∀ name,
                match group.find? (some name) with
                | some param =>
                    param ∈ first :: others
                    ∧ param.key = lower name
                    ∧ ∀ other ∈ first :: others, other.key = lower name → other = param
                | none => ∀ param ∈ first :: others, param.key ≠ lower name)
      ∧ ∀ e,
          declare identity members = .error e
          ↔ identity.RejectedIdentity e
            ∨ ∃ first before member after,
                identity = first.declared
                ∧ members = before.map Simple.declared ++ member :: after
                ∧ Groupable first before
                ∧ member.RejectedMember first before e := by
  refine ⟨exists_declare_eq_ok_iff, ?_, fun e => declare_eq_error_iff⟩
  intro first others group isIdentity areMembers declared
  have whole := declare_eq_ok_iff.1 declared
  rw [isIdentity, areMembers] at whole
  have params : group.params = first :: others := Simple.declared_injective.list_map whole
  rw [← params]
  exact ⟨rfl, group.find?_only⟩

end Group

/-- A fill and its price make a group, in which nothing else than the price goes by its name. A
price is refused as the identity, as it may be left out. A price that is repeated is the error in
front of a group that stands behind it.
-/
theorem fills_declared
    : (∃ group, Group.declare Trade.fill.declared [Trade.price.declared] = .ok group)
      ∧ Trade.fills.params = [Trade.fill, Trade.price]
      ∧ (∀ other ∈ [Trade.fill, Trade.price],
          other.key = lower "PRICE" → other = Trade.price)
      ∧ Group.declare Trade.price.declared [Trade.fill.declared] = .error .identityNotRequired
      ∧ Group.declare Trade.fill.declared
          [Trade.price.declared, Trade.price.declared, .declared (.repeating Trade.fills)]
        = .error (.duplicateMember "price" "fill") := by
  obtain ⟨accepted, declared, -⟩ :=
    Group.declare_accepts_groupable Trade.fill.declared [Trade.price.declared]
  have isFills : Group.declare Trade.fill.declared [Trade.price.declared] = .ok Trade.fills :=
    Group.declare_eq_ok_iff.2 rfl
  obtain ⟨params, finds⟩ := declared Trade.fill [Trade.price] Trade.fills rfl rfl isFills
  refine ⟨accepted.2 ⟨Trade.fill, [Trade.price], rfl, rfl, rfl, rfl, by decide⟩, params, ?_, ?_, ?_⟩
  · have found : Trade.fills.find? (some "PRICE") = some Trade.price :=
      Group.find?_of_key (by simp [params]) (by decide)
    have only := finds "PRICE"
    rw [found] at only
    exact only.2.2
  · exact ((Group.declare_accepts_groupable _ _).2.2 _).2 (Or.inl (.optional rfl))
  · refine ((Group.declare_accepts_groupable _ _).2.2 _).2 (Or.inr
      ⟨Trade.fill, [Trade.price], _, _, rfl, rfl, ⟨rfl, rfl, by decide⟩, ?_⟩)
    exact .repeated (List.mem_cons_of_mem _ (List.mem_singleton_self _)) rfl

end ArgBinding
