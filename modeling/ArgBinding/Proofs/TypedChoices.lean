import ArgBinding.Proofs.ReplacedValues
import ArgBinding.Proofs.UniqueCuts
import Mathlib.Data.List.Forall2

/-! Typed access to parameters that are restricted to the values of a type. What such a parameter is
bound to can always be read as a value of the type: a supplied item is taken in the spelling of the
first member that it names, and reading finds that member again.
-/

namespace ArgBinding

open ArgBinding.Text

-----------------------------------------------------------------------------------------
-- Members and the items that name them
-----------------------------------------------------------------------------------------

/-- The member is the first of the enumeration whose name is the text ignoring case. -/
def Enumeration.Means (e : Enumeration) (text member : String) : Prop :=
  ∃ before after,
    e.members = before ++ member :: after
    ∧ lower member = lower text
    ∧ ∀ earlier ∈ before, lower earlier ≠ lower text

theorem Enumeration.means_iff {e : Enumeration} {text member : String}
    : e.Means text member ↔ Choices.select? (some e.members) text = some member := by
  unfold Means Choices.select?
  simp only [List.find?_eq_some_iff_append, beq_iff_eq, Bool.not_eq_true', beq_eq_false_iff_ne]
  constructor
  · intro h
    rcases h with ⟨before, after, members, same, others⟩
    exact ⟨same, before, after, members, others⟩
  · intro h
    rcases h with ⟨same, before, after, members, others⟩
    exact ⟨before, after, members, same, others⟩

theorem Enumeration.Means.find? {e : Enumeration} {text member : String}
    (means : e.Means text member)
    : e.find? member = some member := by
  obtain ⟨before, after, members, -⟩ := means
  exact find?_of_mem_members (by simp [members])

namespace Simple

/-- The parameter is declared by a draft whose choices are the values of a type. -/
def RestrictedTo (param : Simple) (kind : Kind) : Prop :=
  ∃ draft : Draft, draft.choices = .kind kind ∧ draft.declare.result = .ok param

/-- All that counts is what the choices are in the end. -/
theorem restrictedTo_iff {param : Simple} {kind : Kind}
    : param.RestrictedTo kind ↔ Choices.ofDatum (.kind kind) = .ok param.choices := by
  constructor
  · intro h
    rcases h with ⟨draft, restricted, declared⟩
    simp only [Draft.declare, restricted] at declared
    split at declared
    · cases declared
    · split at declared
      · cases declared
      · cases choices : Choices.ofDatum (.kind kind) with
        | error cause =>
            rw [choices] at declared
            cases declared
        | ok values =>
            rw [choices] at declared
            cases declared
            rfl
  · intro choices
    refine ⟨{ param.draft with choices := .kind kind }, rfl, ?_⟩
    simp [Draft.declare, draft, param.name_visible, param.separator_nonempty, choices]

/-- What the parameter has comes from some items: each of them selects one of the values, and
without any the default stands in. A parameter of a single value has at most one.
-/
structure Selects (param : Simple) (items values : List String) : Prop where
  few : param.allowMultiple = false → values.length ≤ 1
  selected
    : items ≠ []
      → List.Forall₂ (fun item value => param.choices.select? item = some value) items values
  default : items = [] → values = param.default?.toList

end Simple

/-- The items in the texts of the arguments that are assigned to a key, in order. -/
def suppliedItems (key : String) (assignments : List Assignment) : List String :=
  assignments.flatMap fun (param, argument) =>
    if param.key = key then param.valuesIn argument.value else []

theorem forall₂_filterMap {α β : Type} {f : α → Option β} {items : List α}
    (each : ∀ item ∈ items, (f item).isSome = true)
    : List.Forall₂ (fun item value => f item = some value) items (items.filterMap f) := by
  induction items with
  | nil => exact .nil
  | cons item rest ih =>
      obtain ⟨first, others⟩ := List.forall_mem_cons.1 each
      obtain ⟨value, isValue⟩ := Option.isSome_iff_exists.1 first
      rw [List.filterMap_cons_some isValue]
      exact .cons isValue (ih others)

section Assigned

variable {param : Simple} {assignments : List Assignment}

theorem filterMap_suppliedItems
    (coherent : ∀ x ∈ assignments, x.1.key = param.key → x.1 = param)
    : (suppliedItems param.key assignments).filterMap param.choices.select?
      = assignedValues param.key assignments := by
  unfold suppliedItems assignedValues
  rw [List.filterMap_flatMap]
  refine List.flatMap_congr ?_
  intro x member
  by_cases own : x.1.key = param.key
  · simp only [coherent x member own, if_true, Simple.valuesFrom]
  · simp only [own, if_false, List.filterMap_nil]

theorem isSome_select?_of_mem_suppliedItems
    (coherent : ∀ x ∈ assignments, x.1.key = param.key → x.1 = param)
    (allowed : ∀ x ∈ assignments, x.1.Allows x.2.value)
    : ∀ item ∈ suppliedItems param.key assignments,
        (param.choices.select? item).isSome = true := by
  intro item isItem
  obtain ⟨⟨assigned, argument⟩, member, isItem⟩ := List.mem_flatMap.1 isItem
  by_cases own : assigned.key = param.key
  · obtain rfl : assigned = param := coherent (assigned, argument) member own
    exact allowed (assigned, argument) member item (by simpa using isItem)
  · simp [own] at isItem

/-- What arguments bring to a parameter, or its default, is what their items select. -/
theorem Simple.selects_orDefault
    (coherent : ∀ x ∈ assignments, x.1.key = param.key → x.1 = param)
    (allowed : ∀ x ∈ assignments, x.1.Allows x.2.value)
    (few
      : param.allowMultiple = false
        → (param.orDefault (assignedValues param.key assignments)).length ≤ 1)
    : param.Selects (suppliedItems param.key assignments)
        (param.orDefault (assignedValues param.key assignments)) := by
  have each := forall₂_filterMap (isSome_select?_of_mem_suppliedItems coherent allowed)
  rw [filterMap_suppliedItems coherent] at each
  refine ⟨few, ?_, ?_⟩
  · intro supplied
    have bound : assignedValues param.key assignments ≠ [] := by
      intro none
      rw [none, List.forall₂_nil_right_iff] at each
      exact supplied each
    rwa [orDefault, if_neg bound]
  · intro none
    rw [none, List.forall₂_nil_left_iff] at each
    rw [orDefault, if_pos each]

end Assigned

-----------------------------------------------------------------------------------------
-- Typed readings
-----------------------------------------------------------------------------------------

theorem Reading.convertEach_eq_mapM {α : Type} (convert : String → Except ReadError α)
    (texts : List String)
    : convertEach convert texts = texts.mapM convert := by
  induction texts with
  | nil => rfl
  | cons text rest ih =>
      rw [convertEach, List.mapM_cons, ih]
      rfl

/-- All texts are converted exactly when each of them is. -/
theorem Reading.convertEach_eq_ok_iff {α : Type} {convert : String → Except ReadError α}
    {texts : List String} {results : List α}
    : convertEach convert texts = .ok results
      ↔ List.Forall₂ (fun text result => convert text = .ok result) texts results := by
  rw [convertEach_eq_mapM, mapM_eq_ok_iff]

namespace Simple

/-- The values of a parameter can be read as members of an enumeration, under its name in any case.
A single value is read as a member exactly where it is there, and several as as many members. A
supplied item is read as the member that it means.
-/
structure ReadsMembers (param : Simple) (e : Enumeration) (items : List String)
    (read : Option String → Reading)
    : Prop where
  unaliased
    : ∀ other member,
        e.find? other = some member → other ≠ member → other ∉ param.choices.getD []
  single
    : param.allowMultiple = false
      → ∀ name,
          lower name = param.key
          → ∃ member?,
              (read (some name)).member? e = .ok member?
              ∧ (member? = none ↔ (read (some name)).hasValue = .ok false)
              ∧ ∀ item ∈ items, ∃ member, member? = some member ∧ e.Means item member
  several
    : param.allowMultiple = true
      → ∀ name,
          lower name = param.key
          → ∃ values members,
              (read (some name)).values = .ok values
              ∧ (read (some name)).members e = .ok members
              ∧ members.length = values.length
              ∧ (items ≠ [] → List.Forall₂ e.Means items members)

/-- A single value can be read as a truth value, under the name of the parameter in any case. It is
true exactly when it is spelled so, and otherwise spelled as false or not there.
-/
def ReadsTruth (param : Simple) (read : Option String → Reading) : Prop :=
  ∀ name,
    lower name = param.key
    → ∃ value? isTrue,
        (read (some name)).value = .ok value?
        ∧ (read (some name)).truth = .ok isTrue
        ∧ (isTrue = true ↔ value? = some "true")
        ∧ (isTrue = false ↔ value? = some "false" ∨ value? = none)

/-- A parameter that is restricted to the values of a type, its default included, is read as one of
them.
-/
structure ReadsTyped (param : Simple) (items : List String) (read : Option String → Reading)
    : Prop where
  members
    : ∀ e,
        param.RestrictedTo (.enumeration e)
        → (∀ default ∈ param.default?, (e.find? default).isSome = true)
        → param.ReadsMembers e items read
  truth
    : param.RestrictedTo .truth
      → param.allowMultiple = false
      → (∀ default ∈ param.default?, default = "true" ∨ default = "false")
      → param.ReadsTruth read

section Selects

variable {param : Simple} {items values : List String}

/-- A property of the default and of all that items select is one of all values. -/
theorem Selects.forall_mem {holds : String → Prop} (selects : param.Selects items values)
    (selected : ∀ item value, param.choices.select? item = some value → holds value)
    (default : ∀ value ∈ param.default?, holds value)
    : ∀ value ∈ values, holds value := by
  by_cases none : items = []
  · rw [selects.default none]
    simpa using default
  · have each : List.Forall₂
        (fun value item => holds value ∧ param.choices.select? item = some value) values items :=
      List.Forall₂.flip ((selects.selected none).imp fun item value isSelected =>
        ⟨selected item value isSelected, isSelected⟩)
    exact ((List.forall₂_and_left _ _).1 each).1

/-- The only value, if there is one, is selected by all items. -/
theorem Selects.select?_of_single {value : String} (selects : param.Selects items [value])
    : ∀ item ∈ items, param.choices.select? item = some value := by
  intro item isItem
  obtain ⟨only, others, selected, none, rfl⟩ :=
    List.forall₂_cons_right_iff.1 (selects.selected (List.ne_nil_of_mem isItem))
  rw [List.forall₂_nil_right_iff.1 none] at isItem
  rwa [List.mem_singleton.1 isItem]

theorem Selects.items_eq_nil (selects : param.Selects items []) : items = [] := by
  by_contra supplied
  exact supplied (List.forall₂_nil_right_iff.1 (selects.selected supplied))

variable {read : Option String → Reading} (selects : param.Selects items values)
  (reads
    : ∀ name,
        lower name = param.key → read (some name) = param.reading id (some name) values)

include selects reads

theorem Selects.readsMembers {e : Enumeration} (choices : param.choices = some e.members)
    (default : ∀ value ∈ param.default?, (e.find? value).isSome = true)
    : param.ReadsMembers e items read := by
  have means {item value : String} (selected : param.choices.select? item = some value)
      : e.Means item value := by
    rw [choices] at selected
    exact Enumeration.means_iff.2 selected
  have declared : ∀ value ∈ values, (e.find? value).isSome = true := by
    refine selects.forall_mem ?_ default
    intro item value selected
    simp [(means selected).find?]
  refine ⟨?_, ?_, ?_⟩
  · intro other member stands differs isChoice
    rw [choices] at isChoice
    exact differs (Option.some.inj ((Enumeration.find?_of_mem_members isChoice).symm.trans stands))
  · intro single name key
    rw [reads name key]
    simp only [Reading.member?, Reading.converted?, value_reading single]
    rcases values with _ | ⟨value, _ | ⟨next, rest⟩⟩
    · exact ⟨none, rfl, by simp [reading], by simp [selects.items_eq_nil]⟩
    · obtain ⟨member, stands⟩ := Option.isSome_iff_exists.1 (declared value (by simp))
      refine ⟨some member, by simp [memberOf, stands, Except.map], by simp [reading], ?_⟩
      intro item isItem
      have isMeant := means (selects.select?_of_single item isItem)
      obtain rfl : value = member := Option.some.inj (isMeant.find?.symm.trans stands)
      exact ⟨value, rfl, isMeant⟩
    · simpa using selects.few single
  · intro several name key
    rw [reads name key]
    -- A default may be another name of a member, so the members are not the values themselves.
    have converted : List.Forall₂ (fun value member => memberOf e value = .ok member) values
        (values.map fun value => (e.find? value).getD value) := by
      refine List.forall₂_map_right_iff.2 (List.forall₂_same.2 ?_)
      intro value isValue
      obtain ⟨member, stands⟩ := Option.isSome_iff_exists.1 (declared value isValue)
      simp [memberOf, stands]
    refine ⟨values, values.map fun value => (e.find? value).getD value, by simp [reading], ?_,
      by simp, ?_⟩
    · simpa [Reading.members, Reading.allConverted, reading]
        using Reading.convertEach_eq_ok_iff.2 converted
    · intro supplied
      refine List.forall₂_map_right_iff.2 ((selects.selected supplied).imp ?_)
      intro item value selected
      rw [(means selected).find?]
      exact means selected

theorem Selects.readsTruth (choices : param.choices = some ["true", "false"])
    (single : param.allowMultiple = false)
    (default : ∀ value ∈ param.default?, value = "true" ∨ value = "false")
    : param.ReadsTruth read := by
  have spelled : ∀ value ∈ values, value = "true" ∨ value = "false" := by
    refine selects.forall_mem ?_ default
    intro item value selected
    rw [choices] at selected
    simpa using List.mem_of_find?_eq_some selected
  intro name key
  rw [reads name key]
  simp only [Reading.truth, value_reading single]
  refine ⟨_, _, rfl, rfl, ?_⟩
  cases isValue : values.head? with
  | none => simp [isTrue]
  | some value =>
      rcases spelled value (List.mem_of_mem_head? isValue) with rfl | rfl
      · have truth : isTrue (some "true") = true := by decide
        simp [truth]
      · have truth : isTrue (some "false") = false := by decide
        simp [truth]

/-- What items select is read as values of the type to which the parameter is restricted. -/
theorem Selects.readsTyped : param.ReadsTyped items read := by
  refine ⟨?_, ?_⟩
  · intro e restricted default
    exact selects.readsMembers reads (Except.ok.inj (restrictedTo_iff.1 restricted)).symm default
  · intro restricted single default
    exact selects.readsTruth reads (Except.ok.inj (restrictedTo_iff.1 restricted)).symm single
      default

end Selects

end Simple

-----------------------------------------------------------------------------------------
-- Calls
-----------------------------------------------------------------------------------------

/-- A plain parameter has what its items select after admitted blocks. -/
theorem Schema.Admits.selects {schema : Schema} {blocks : List Block} {param : Simple}
    (admitted : schema.Admits blocks) (declared : ∀ block ∈ blocks, block.param ∈ schema.params)
    (shaped : ∀ block ∈ blocks, block.Shaped) (isDeclared : .simple param ∈ schema.params)
    : param.Selects (suppliedItems param.key (plainAssignments blocks))
        (param.orDefault (assignedValues param.key (plainAssignments blocks))) := by
  refine Simple.selects_orDefault ?_ ?_ (admitted.length_plain_le declared shaped isDeclared)
  · exact fun x => eq_of_mem_plainAssignments declared isDeclared
  · exact fun x => allows_of_mem_plainAssignments admitted.allowed

/-- A member has what its items in a block select. -/
theorem Block.selects_at_table {block : Block} {group : Group} {member : Simple}
    (allowed : block.Allowed) (shaped : block.Shaped) (isGroup : block.param = .repeating group)
    (isMember : member ∈ group.params)
    : member.Selects (suppliedItems member.key block.assignments)
        ((block.table group).at member.key) := by
  have few := Block.length_at_table_le allowed shaped isGroup isMember
  rw [Block.at_table isMember] at few ⊢
  exact Simple.selects_orDefault (fun x => Block.eq_of_mem_assignments isGroup isMember) allowed few

/-- After a call without a replacer that succeeds on accepted declarations, every parameter that is
restricted to the values of a type is read as one of them: plain ones by what their arguments
supplied, members of groups by what the block of each repetition supplied. Witness: the blocks that
the schema admits.
-/
theorem bind_reads_typed {entries : List Entry} {schema : Schema}
    {arguments : List (Option String)} {bound : Bound}
    (accepted : Schema.declare entries = .ok schema)
    (isBound : (bind entries id arguments).result = .ok bound)
    : ∃ leading named,
        schema.Cut (Argument.ofTexts arguments) leading named
        ∧ (∀ param,
            .simple param ∈ schema.params
            → param.ReadsTyped
                (suppliedItems param.key (plainAssignments (leading ++ named))) bound.read)
        ∧ ∀ group,
            .repeating group ∈ schema.params
            → ∃ repetitions,
                (∀ name,
                  lower name = group.key → bound.repetitions (some name) = .ok repetitions)
                ∧ List.Forall₂
                    (fun block repetition =>
                      ∀ member ∈ group.params,
                        member.ReadsTyped (suppliedItems member.key block.assignments)
                          repetition.read)
                    ((leading ++ named).filter fun block => block.param = .repeating group)
                    repetitions := by
  obtain ⟨-, leading, named, cut, admitted, rfl⟩ := (bind_result_eq_ok_iff_cut accepted).1 isBound
  refine ⟨leading, named, cut, ?_, ?_⟩
  · intro param isDeclared
    refine (admitted.selects cut.declared cut.shaped isDeclared).readsTyped ?_
    intro name key
    rw [Schema.read_completed isDeclared key, Schema.values_at_completed isDeclared]
    simp only [progressOf, boundValues_bindingsOf]
  · intro group isDeclared
    refine ⟨_, fun name => Schema.repetitions_completed isDeclared, ?_⟩
    rw [repetitionsAt_completed_progressOf cut.declared isDeclared, List.forall₂_map_right_iff,
      List.forall₂_same]
    intro block isOwn member isMember
    obtain ⟨isBlock, isGroup⟩ := List.mem_filter.1 isOwn
    refine (Block.selects_at_table (admitted.allowed block isBlock) (cut.shaped block isBlock)
      (of_decide_eq_true isGroup) isMember).readsTyped ?_
    exact fun name => Repetition.read_of_key isMember

namespace Trade

/-- How urgent a trade is. Two members differ only in case, and one has another name. -/
def urgency : Enumeration :=
  {
    name := "Urgency"
    names := [("LOW", "LOW"), ("High", "High"), ("HIGH", "HIGH"), ("TOP", "HIGH")]
    names_nodup := by decide
  }

def urgent : Simple :=
  {
    price with
    name := "urgent"
    choices := some urgency.members
    presence := .optional (some "TOP")
    name_visible := by decide
  }

def firm : Simple :=
  {
    price with
    name := "firm"
    choices := some ["true", "false"]
    presence := .optional (some "false")
    name_visible := by decide
  }

def steps : Simple :=
  { tags with name := "steps", choices := some urgency.members, name_visible := by decide }

def legs : Group :=
  { fills with members := [steps], keys_nodup := by decide }

def typed : Schema :=
  {
    params := [.simple urgent, .simple firm, .repeating legs]
    keys_nodup := by decide
    required_first := by decide
  }

def typedArguments : List (Option String) :=
  [some "urgent: high", some "firm: TRUE", some "fill: 1", some "steps: low, HIGH"]

def typedBlocks : List Block :=
  [
    ⟨.simple urgent, Argument.ofText "urgent: high", []⟩,
    ⟨.simple firm, Argument.ofText "firm: TRUE", []⟩,
    ⟨.repeating legs, Argument.ofText "fill: 1", [Argument.ofText "steps: low, HIGH"]⟩
  ]

end Trade

/-- In a trade the items are read as the first members that they name, whatever their case. -/
theorem trade_read_typed
    : Schema.declare (Trade.typed.params.map Entry.declared) = .ok Trade.typed
      ∧ Trade.urgent.RestrictedTo (.enumeration Trade.urgency)
      ∧ Trade.steps.RestrictedTo (.enumeration Trade.urgency)
      ∧ Trade.firm.RestrictedTo .truth
      ∧ ∃ bound repetition,
          (bind (Trade.typed.params.map Entry.declared) id Trade.typedArguments).result = .ok bound
          ∧ (bound.read (some "Urgent")).member? Trade.urgency = .ok (some "High")
          ∧ Trade.firm.ReadsTruth bound.read
          ∧ bound.repetitions (some "fill") = .ok [repetition]
          ∧ (repetition.read (some "steps")).members Trade.urgency = .ok ["LOW", "High"] := by
  have accepted : Schema.declare (Trade.typed.params.map Entry.declared) = .ok Trade.typed :=
    Schema.declare_eq_ok_iff.2 rfl
  have urgent : Trade.urgent.RestrictedTo (.enumeration Trade.urgency) :=
    Simple.restrictedTo_iff.2 rfl
  have steps : Trade.steps.RestrictedTo (.enumeration Trade.urgency) :=
    Simple.restrictedTo_iff.2 rfl
  have firm : Trade.firm.RestrictedTo .truth := Simple.restrictedTo_iff.2 rfl
  obtain ⟨bound, isBound⟩ : ∃ bound,
      (bind (Trade.typed.params.map Entry.declared) id Trade.typedArguments).result = .ok bound :=
    exists_eq_ok_of_isSome (by decide +kernel)
  have front : Trade.typed.Cut (Argument.ofTexts Trade.typedArguments) [] Trade.typedBlocks := by
    decide
  obtain ⟨leading, named, cut, plain, repeated⟩ := bind_reads_typed accepted isBound
  obtain ⟨rfl, rfl⟩ := cut.unique front
  have meant {text member first : String} (means : Trade.urgency.Means text member)
      (selected : Choices.select? (some Trade.urgency.members) text = some first)
      : member = first :=
    Option.some.inj ((Enumeration.means_iff.1 means).symm.trans selected)
  obtain ⟨member?, isMember, -, each⟩ :=
    ((plain Trade.urgent (by decide)).members _ urgent (by decide)).single rfl "Urgent" (by decide)
  obtain ⟨member, rfl, means⟩ := each "high" (by decide)
  obtain rfl : member = "High" := meant means (by decide)
  have truth := (plain Trade.firm (by decide)).truth firm rfl (by decide)
  obtain ⟨repetitions, isRepeated, each⟩ := repeated Trade.legs (by decide)
  have own : (([] ++ Trade.typedBlocks : List Block).filter fun block =>
        block.param = .repeating Trade.legs)
      = [⟨.repeating Trade.legs, Argument.ofText "fill: 1",
          [Argument.ofText "steps: low, HIGH"]⟩] := rfl
  rw [own, List.forall₂_cons_left_iff] at each
  obtain ⟨repetition, others, isTyped, none, rfl⟩ := each
  cases none
  obtain ⟨-, members, -, isMembers, -, means⟩ :=
    ((isTyped Trade.steps (by decide)).members _ steps (by decide)).several rfl "steps" (by decide)
  have items : suppliedItems Trade.steps.key
        (Block.assignments ⟨.repeating Trade.legs, Argument.ofText "fill: 1",
          [Argument.ofText "steps: low, HIGH"]⟩)
      = ["low", "HIGH"] := by
    decide
  rw [items] at means
  cases means (by simp) with
  | cons low others =>
      cases others with
      | cons high none =>
          cases none
          rw [meant low (by decide : _ = some "LOW"), meant high (by decide : _ = some "High")]
            at isMembers
          exact ⟨accepted, urgent, steps, firm, bound, repetition, isBound, isMember, truth,
            isRepeated "fill" (by decide), isMembers⟩

end ArgBinding
