import ArgBinding.Proofs.Declarations
import Mathlib.Data.List.Induction

/-! Chains of revisions. A step that fails leaves the parameter as it was, so every chain ends in a
parameter. It is the one that a single declaration makes of what the last successful step on each
field has set, and of what the parameter had before in every other field.
-/

namespace ArgBinding

open ArgBinding.Text

-----------------------------------------------------------------------------------------
-- Drafts that declare the same parameter
-----------------------------------------------------------------------------------------

/-- The data that describe the same choices as the texts themselves. What is no collection of values
stays as it is.
-/
def Datum.normalized (datum : Datum) : Datum :=
  match Choices.ofDatum datum with
  | .ok choices => choices.toDatum
  | .error _ => datum

theorem Datum.ofDatum_normalized (datum : Datum)
    : Choices.ofDatum datum.normalized = Choices.ofDatum datum := by
  unfold normalized
  cases read : Choices.ofDatum datum with
  | ok choices => exact Choices.ofDatum_toDatum choices
  | error cause => exact read

namespace Draft

/-- The draft with its choices given by the texts themselves. -/
def normalized (draft : Draft) : Draft :=
  { draft with choices := draft.choices.normalized }

/-- Both drafts give a parameter the same fields. A missing text counts as an empty one, and choices
count by what the data describe.
-/
structure Agrees (draft other : Draft) : Prop where
  name : draft.name.getD "" = other.name.getD ""
  allowMultiple : draft.allowMultiple = other.allowMultiple
  separator : draft.separator.getD "" = other.separator.getD ""
  choices : Choices.ofDatum draft.choices = Choices.ofDatum other.choices
  presence : draft.presence = other.presence

variable {draft middle other : Draft}

theorem Agrees.trans (first : draft.Agrees middle) (second : middle.Agrees other)
    : draft.Agrees other :=
  {
    name := first.name.trans second.name
    allowMultiple := first.allowMultiple.trans second.allowMultiple
    separator := first.separator.trans second.separator
    choices := first.choices.trans second.choices
    presence := first.presence.trans second.presence
  }

theorem normalized_agrees (draft : Draft) : draft.normalized.Agrees draft :=
  ⟨rfl, rfl, rfl, draft.choices.ofDatum_normalized, rfl⟩

/-- Drafts that agree declare the same parameter or fail alike. -/
theorem Agrees.declare_result (agrees : draft.Agrees other)
    : draft.declare.result = other.declare.result := by
  obtain ⟨name, allowMultiple, separator, choices, presence⟩ := agrees
  simp only [declare, name, allowMultiple, separator, choices, presence]

/-- A draft declares exactly the parameter with whose own draft it agrees. -/
theorem declare_result_eq_ok_iff {param : Simple}
    : draft.declare.result = .ok param ↔ draft.Agrees param.draft := by
  constructor
  · intro declared
    unfold declare at declared
    dsimp only at declared
    split at declared
    · cases declared
    · split at declared
      · cases declared
      · cases read : Choices.ofDatum draft.choices with
        | error cause =>
            rw [read] at declared
            cases declared
        | ok choices =>
            rw [read] at declared
            cases declared
            exact ⟨rfl, rfl, rfl, read.trans (Choices.ofDatum_toDatum choices).symm, rfl⟩
  · intro agrees
    rw [agrees.declare_result]
    exact param.declare_draft

theorem isOk_declare_iff
    : draft.declare.result.isOk = true
      ↔ trim (draft.name.getD "") ≠ ""
        ∧ draft.separator.getD "" ≠ ""
        ∧ (Choices.ofDatum draft.choices).isOk = true := by
  unfold declare
  dsimp only
  split
  · simp [*, Advised.ofExcept, Except.isOk, Except.toBool]
  · split
    · simp [*, Advised.ofExcept, Except.isOk, Except.toBool]
    · cases Choices.ofDatum draft.choices <;> simp [*, Except.isOk, Except.toBool]

end Draft

-----------------------------------------------------------------------------------------
-- Steps
-----------------------------------------------------------------------------------------

/-- The presence with a default in place of the one that it has. A required parameter has none. -/
def Presence.withDefault (presence : Presence) (default? : Option (Option String)) : Presence :=
  match presence with
  | .required => .required
  | .optional default => .optional (default?.getD default)

@[simp]
theorem Presence.withDefault_none (presence : Presence) : presence.withDefault none = presence := by
  cases presence <;> rfl

namespace Simple

namespace Revision

/-- What a step is about. -/
inductive Field where
  | splitting
  | choices
  | default
  deriving DecidableEq

def field : Revision → Field
  | allowMultiple _ => .splitting
  | restrict _ => .choices
  | useDefault _ => .default

/-- The separator that a step sets. -/
def separator? : Revision → Option (Option String)
  | allowMultiple separator => some separator
  | _ => none

/-- The data to which a step restricts the values. -/
def choices? : Revision → Option Datum
  | restrict [.kind kind] => some (.kind kind)
  | restrict values => some (.list values)
  | _ => none

/-- The default that a step sets. -/
def default? : Revision → Option (Option String)
  | useDefault default => some default
  | _ => none

theorem field_of_separator? {revision : Revision} {separator : Option String}
    (sets : revision.separator? = some separator)
    : revision.field = .splitting := by
  cases revision <;> first | rfl | cases sets

theorem field_of_choices? {revision : Revision} {given : Datum}
    (sets : revision.choices? = some given)
    : revision.field = .choices := by
  cases revision <;> first | rfl | cases sets

theorem field_of_default? {revision : Revision} {default : Option String}
    (sets : revision.default? = some default)
    : revision.field = .default := by
  cases revision <;> first | rfl | cases sets

/-- A step sets its own field and leaves all others; witness: the case of the step. -/
theorem apply_eq (revision : Revision) (draft : Draft)
    : revision.apply draft
      = {
        name := draft.name
        allowMultiple := draft.allowMultiple || revision.separator?.isSome
        separator := revision.separator?.getD draft.separator
        choices := revision.choices?.getD draft.choices
        presence := draft.presence.withDefault revision.default?
      } := by
  cases revision with
  | allowMultiple separator => simp [apply, separator?, choices?, default?]
  | restrict values =>
      unfold apply choices?
      split <;> simp_all [separator?, default?]
  | useDefault default =>
      obtain ⟨_, _, _, _, presence⟩ := draft
      cases presence <;> simp [apply, separator?, choices?, default?, Presence.withDefault]

end Revision

end Simple

theorem Draft.Agrees.apply {draft other : Draft} (agrees : draft.Agrees other)
    (revision : Simple.Revision)
    : (revision.apply draft).Agrees (revision.apply other) := by
  obtain ⟨name, allowMultiple, separator, choices, presence⟩ := agrees
  rw [revision.apply_eq draft, revision.apply_eq other]
  refine ⟨name, ?_, ?_, ?_, ?_⟩
  · rw [allowMultiple]
  · cases revision.separator? with
    | none => exact separator
    | some given => rfl
  · cases revision.choices? with
    | none => exact choices
    | some given => rfl
  · rw [presence]

-----------------------------------------------------------------------------------------
-- Chains
-----------------------------------------------------------------------------------------

namespace Simple

/-- The parameter after a chain of steps, each of which leaves it as it was where it fails. -/
def revisedBy (param : Simple) (chain : List Revision) : Simple :=
  chain.foldl revised param

/-- The steps of a chain that succeed, each taken on what the steps before it left. -/
def succeeded (param : Simple) (chain : List Revision) : List Revision :=
  (chain.zip (param.revisions chain)).filterMap fun (revision, outcome) =>
    if outcome.result.isOk then some revision else none

/-- The declaration of a parameter that has what the last of some steps on each field has set, and
what the given parameter has in every other field.
-/
def draftWith (param : Simple) (steps : List Revision) : Draft :=
  {
    name := some param.name
    allowMultiple := param.allowMultiple || (steps.filterMap Revision.separator?).getLast?.isSome
    separator := (steps.filterMap Revision.separator?).getLast?.getD (some param.separator)
    choices := (steps.filterMap Revision.choices?).getLast?.getD param.choices.toDatum
    presence := param.presence.withDefault (steps.filterMap Revision.default?).getLast?
  }

variable {param : Simple} {chain : List Revision} {revision : Revision}

theorem length_revisions (param : Simple) (chain : List Revision)
    : (param.revisions chain).length = chain.length := by
  induction chain generalizing param with
  | nil => rfl
  | cons first rest ih => simp [revisions, ih]

/-- The last step of a chain is taken on what the others left, by induction on the others. -/
theorem revisions_concat (param : Simple) (chain : List Revision) (revision : Revision)
    : param.revisions (chain ++ [revision])
      = param.revisions chain ++ [(param.revisedBy chain).revise revision] := by
  induction chain generalizing param with
  | nil => rfl
  | cons first rest ih => simp [revisions, revisedBy, ih]

theorem revisedBy_concat (param : Simple) (chain : List Revision) (revision : Revision)
    : param.revisedBy (chain ++ [revision]) = (param.revisedBy chain).revised revision := by
  simp [revisedBy]

theorem succeeded_concat (param : Simple) (chain : List Revision) (revision : Revision)
    : param.succeeded (chain ++ [revision])
      = if ((param.revisedBy chain).revise revision).result.isOk then
          param.succeeded chain ++ [revision]
        else
          param.succeeded chain := by
  have sameLength := (param.length_revisions chain).symm
  unfold succeeded
  rw [revisions_concat, List.zip_append sameLength, List.filterMap_append]
  split <;> simp [*]

theorem draftWith_concat (param : Simple) (steps : List Revision) (revision : Revision)
    : param.draftWith (steps ++ [revision]) = revision.apply (param.draftWith steps) := by
  have latest {α : Type} (set? : Revision → Option α)
      : ((steps ++ [revision]).filterMap set?).getLast?
        = (set? revision).or (steps.filterMap set?).getLast? := by
    rw [List.filterMap_append, List.getLast?_append]
    cases isSet : set? revision <;> simp [isSet]
  rw [revision.apply_eq]
  simp only [draftWith, latest]
  congr 1
  · cases revision.separator? <;> simp
  · cases revision.separator? <;> rfl
  · cases revision.choices? <;> rfl
  · cases param.presence with
    | required => rfl
    | optional default => cases revision.default? <;> rfl

/-- By induction on the chain from its end: a step that fails is none of those that succeed, and one
that succeeds is taken on a parameter whose draft agrees with that of the steps before it.
-/
theorem draftWith_succeeded_agrees (param : Simple) (chain : List Revision)
    : (param.draftWith (param.succeeded chain)).Agrees (param.revisedBy chain).draft := by
  induction chain using List.reverseRecOn with
  | nil => exact ⟨rfl, Bool.or_false _, rfl, rfl, param.presence.withDefault_none⟩
  | append_singleton chain revision ih =>
      rw [succeeded_concat, revisedBy_concat, revised]
      cases outcome : ((param.revisedBy chain).revise revision).result with
      | error cause => exact ih
      | ok next =>
          have agrees : (revision.apply (param.revisedBy chain).draft).Agrees next.draft :=
            Draft.declare_result_eq_ok_iff.1 outcome
          simp only [Except.isOk, Except.toBool, if_true]
          rw [draftWith_concat]
          exact (ih.apply revision).trans agrees

/-- A step fails exactly by an empty separator or by data that are no collection of values; it does
not matter to which parameter it is applied.
-/
theorem isOk_revise_iff
    : (param.revise revision).result.isOk = true
      ↔ (∀ separator, revision.separator? = some separator → separator.getD "" ≠ "")
        ∧ ∀ given, revision.choices? = some given → (Choices.ofDatum given).isOk = true := by
  rw [revise, Draft.isOk_declare_iff, revision.apply_eq]
  have visible : trim (param.draft.name.getD "") ≠ "" := param.name_visible
  refine ⟨?_, ?_⟩
  · rintro ⟨-, separates, describes⟩
    refine ⟨?_, ?_⟩
    · intro separator sets
      simpa [sets] using separates
    · intro given sets
      simpa [sets] using describes
  · rintro ⟨separates, describes⟩
    refine ⟨visible, ?_, ?_⟩
    · cases sets : revision.separator? with
      | none => exact param.separator_nonempty
      | some separator => exact separates separator sets
    · cases sets : revision.choices? with
      | none =>
          show (Choices.ofDatum param.choices.toDatum).isOk = true
          rw [Choices.ofDatum_toDatum]
          rfl
      | some given => exact describes given sets

/-- The steps of a chain that succeed are those that would succeed at its start. -/
theorem succeeded_eq_filter (param : Simple) (chain : List Revision)
    : param.succeeded chain
      = chain.filter fun revision => (param.revise revision).result.isOk := by
  induction chain using List.reverseRecOn with
  | nil => rfl
  | append_singleton chain revision ih =>
      have alike : ((param.revisedBy chain).revise revision).result.isOk
          = (param.revise revision).result.isOk := by
        rw [Bool.eq_iff_iff, isOk_revise_iff, isOk_revise_iff]
      rw [succeeded_concat, alike, ih, List.filter_append]
      split <;> simp [*]

/-- What the successful steps of a chain set on a field is set by the steps on this field. -/
theorem filterMap_succeeded {α : Type} (param : Simple) (chain : List Revision)
    {set? : Revision → Option α} {field : Revision.Field}
    (own : ∀ revision value, set? revision = some value → revision.field = field)
    : (param.succeeded chain).filterMap set?
      = (param.succeeded (chain.filter fun revision => revision.field = field)).filterMap set? := by
  rw [succeeded_eq_filter, succeeded_eq_filter, List.filter_filter, List.filterMap_filter,
    List.filterMap_filter]
  refine List.filterMap_congr ?_
  intro revision _
  cases sets : set? revision with
  | none => simp
  | some value => simp [own revision value sets]

/-- A chain of steps ends in the parameter that one declaration makes of the last successful step on
each field and of the fields before it, whether the choices in it are given by their texts or as the
step gave them. Steps on different fields can change places. Witness: the draft of the steps that
succeed agrees with that of the parameter in which the chain ends.
-/
theorem declare_draftWith_succeeded (param : Simple) (chain : List Revision)
    : (param.draftWith (param.succeeded chain)).normalized.declare.result
        = .ok (param.revisedBy chain)
      ∧ (param.draftWith (param.succeeded chain)).declare.result = .ok (param.revisedBy chain)
      ∧ ∀ other : List Revision,
          (∀ field, (other.filter fun revision => revision.field = field)
            = chain.filter fun revision => revision.field = field)
          → param.revisedBy other = param.revisedBy chain := by
  have agrees := param.draftWith_succeeded_agrees chain
  have declared := Draft.declare_result_eq_ok_iff.2 agrees
  refine ⟨?_, declared, ?_⟩
  · exact Draft.declare_result_eq_ok_iff.2 ((Draft.normalized_agrees _).trans agrees)
  · intro other sameSteps
    have alike {α : Type} {set? : Revision → Option α} {field : Revision.Field}
        (own : ∀ revision value, set? revision = some value → revision.field = field)
        : (param.succeeded other).filterMap set? = (param.succeeded chain).filterMap set? := by
      rw [filterMap_succeeded param other own, filterMap_succeeded param chain own, sameSteps]
    have sameDraft : param.draftWith (param.succeeded other)
        = param.draftWith (param.succeeded chain) := by
      unfold draftWith
      rw [alike fun _ _ => Revision.field_of_separator?,
        alike fun _ _ => Revision.field_of_choices?, alike fun _ _ => Revision.field_of_default?]
    have otherDeclared := Draft.declare_result_eq_ok_iff.2 (param.draftWith_succeeded_agrees other)
    rw [sameDraft, declared] at otherDeclared
    exact (Except.ok.inj otherDeclared).symm

end Simple

namespace Trade

/-- Steps on the price of a fill, of which the first and the last fail. -/
def priceRevisions : List Simple.Revision :=
  [.allowMultiple (some ""), .restrict [.text "1", .integer 2], .useDefault (some "2"),
    .allowMultiple (some ";"), .restrict [.kind .integer]]

/-- The same steps on each field in another order of the fields. -/
def movedRevisions : List Simple.Revision :=
  [.useDefault (some "2"), .restrict [.text "1", .integer 2], .restrict [.kind .integer],
    .allowMultiple (some ""), .allowMultiple (some ";")]

end Trade

/-- The steps on a price that succeed are declared at once, in either order. -/
theorem price_revised
    : (∀ field,
        (Trade.movedRevisions.filter fun revision => revision.field = field)
          = Trade.priceRevisions.filter fun revision => revision.field = field)
      ∧ Trade.price.revisedBy Trade.movedRevisions = Trade.price.revisedBy Trade.priceRevisions
      ∧ (Trade.price.succeeded Trade.priceRevisions).length = 3
      ∧ (Trade.price.revisedBy Trade.priceRevisions).allowMultiple = true
      ∧ (Trade.price.revisedBy Trade.priceRevisions).separator = ";"
      ∧ (Trade.price.revisedBy Trade.priceRevisions).choices = some ["1", "2"]
      ∧ (Trade.price.revisedBy Trade.priceRevisions).presence = .optional (some "2") := by
  have sameSteps (field : Simple.Revision.Field)
      : (Trade.movedRevisions.filter fun revision => revision.field = field)
        = Trade.priceRevisions.filter fun revision => revision.field = field := by
    cases field <;> rfl
  obtain ⟨-, -, moved⟩ :=
    Simple.declare_draftWith_succeeded Trade.price Trade.priceRevisions
  exact ⟨sameSteps, moved _ sameSteps, by decide +kernel, by decide +kernel, by decide +kernel,
    by decide +kernel, by decide +kernel⟩

end ArgBinding
