import ArgBinding.Argument
import ArgBinding.Binding.Basic
import ArgBinding.Schema
import Mathlib.Data.List.Forall2
import Mathlib.Data.List.Nodup

/-! Accepted declarations and the parameters that names mean in them. Keys are distinct, so a name
means the one parameter that has its key, in a schema as well as in a group.
-/

namespace ArgBinding

open ArgBinding.Text

theorem except_bind_eq_ok_iff {ε α β : Type} {first : Except ε α} {next : α → Except ε β} {last : β}
    : (first >>= next) = .ok last ↔ ∃ middle, first = .ok middle ∧ next middle = .ok last := by
  cases first <;> simp [bind, Except.bind]

theorem except_map_eq_ok_iff {ε α β : Type} {result : Except ε α} {f : α → β} {last : β}
    : result.map f = .ok last ↔ ∃ value, result = .ok value ∧ f value = last := by
  cases result <;> simp [Except.map]

theorem except_bind_eq_error_iff {ε α β : Type} {first : Except ε α} {next : α → Except ε β} {e : ε}
    : (first >>= next) = .error e
      ↔ first = .error e ∨ ∃ middle, first = .ok middle ∧ next middle = .error e := by
  cases first <;> simp [bind, Except.bind]

theorem except_map_eq_error_iff {ε α β : Type} {result : Except ε α} {f : α → β} {e : ε}
    : result.map f = .error e ↔ result = .error e := by
  cases result <;> simp [Except.map]

theorem exists_eq_ok_of_isSome {ε α : Type} {result : Except ε α}
    (h : result.toOption.isSome = true)
    : ∃ value, result = .ok value := by
  cases result with
  | error => simp [Except.toOption] at h
  | ok value => exact ⟨value, rfl⟩

theorem exists_eq_ok_of_map_toOption {ε α β : Type} {result : Except ε α} {f : α → β} {last : β}
    (h : result.toOption.map f = some last)
    : ∃ value, result = .ok value ∧ f value = last := by
  cases result with
  | error => simp [Except.toOption] at h
  | ok value => exact ⟨value, rfl, Option.some.inj h⟩

section Each

variable {ε α β : Type} {f : α → Except ε β}

/-- A function succeeds on all items exactly when it does on each, by induction on the items. -/
theorem mapM_eq_ok_iff {items : List α} {results : List β}
    : items.mapM f = .ok results
      ↔ List.Forall₂ (fun item result => f item = .ok result) items results := by
  induction items generalizing results with
  | nil => simp [pure, Except.pure, eq_comm]
  | cons item rest ih =>
      simp only [List.mapM_cons, except_bind_eq_ok_iff, ih, List.forall₂_cons_left_iff, pure,
        Except.pure, Except.ok.injEq]
      constructor
      · intro h
        rcases h with ⟨first, isFirst, others, areOthers, rfl⟩
        exact ⟨first, others, isFirst, areOthers, rfl⟩
      · intro h
        rcases h with ⟨first, others, isFirst, areOthers, rfl⟩
        exact ⟨first, isFirst, others, areOthers, rfl⟩

/-- A function fails on some items by the first on which it fails, by induction on the items. -/
theorem mapM_eq_error_iff {items : List α} {e : ε}
    : items.mapM f = .error e
      ↔ ∃ before item after,
          items = before ++ item :: after
          ∧ (∀ earlier ∈ before, ∃ result, f earlier = .ok result)
          ∧ f item = .error e := by
  induction items with
  | nil => simp [pure, Except.pure]
  | cons item rest ih =>
      simp only [List.mapM_cons, except_bind_eq_error_iff, pure, Except.pure, reduceCtorEq,
        and_false, exists_false, or_false, ih]
      constructor
      · intro h
        rcases h with fails | ⟨first, isFirst, before, other, after, rfl, passed, fails⟩
        · exact ⟨[], item, rest, rfl, by simp, fails⟩
        · refine ⟨item :: before, other, after, rfl, ?_, fails⟩
          exact List.forall_mem_cons.2 ⟨⟨first, isFirst⟩, passed⟩
      · intro h
        rcases h with ⟨before, other, after, split, passed, fails⟩
        cases before with
        | nil =>
            obtain ⟨rfl, rfl⟩ := List.cons.inj split
            exact Or.inl fails
        | cons first before =>
            obtain ⟨rfl, rfl⟩ := List.cons.inj split
            obtain ⟨⟨value, isFirst⟩, passed⟩ := List.forall_mem_cons.1 passed
            exact Or.inr ⟨value, isFirst, before, other, after, rfl, passed, fails⟩

end Each

section Folds

variable {ε α β : Type} {step : β → α → Except ε β}

/-- Folding fails on the first item that what is reached in front of it does not take, by induction
on the items.
-/
theorem foldlM_eq_error_iff {items : List α} {start : β} {e : ε}
    : items.foldlM step start = .error e
      ↔ ∃ before item after reached,
          items = before ++ item :: after
          ∧ before.foldlM step start = .ok reached
          ∧ step reached item = .error e := by
  induction items generalizing start with
  | nil => simp [pure, Except.pure]
  | cons item rest ih =>
      simp only [List.foldlM_cons, except_bind_eq_error_iff, ih]
      constructor
      · intro h
        rcases h with fails | ⟨next, taken, before, other, after, reached, rfl, run, fails⟩
        · exact ⟨[], item, rest, start, rfl, rfl, fails⟩
        · refine ⟨item :: before, other, after, reached, rfl, ?_, fails⟩
          rw [List.foldlM_cons, except_bind_eq_ok_iff]
          exact ⟨next, taken, run⟩
      · intro h
        rcases h with ⟨before, other, after, reached, split, run, fails⟩
        cases before with
        | nil =>
            obtain ⟨rfl, rfl⟩ := List.cons.inj split
            obtain rfl : start = reached := Except.ok.inj run
            exact Or.inl fails
        | cons first before =>
            obtain ⟨rfl, rfl⟩ := List.cons.inj split
            rw [List.foldlM_cons, except_bind_eq_ok_iff] at run
            obtain ⟨next, taken, run⟩ := run
            exact Or.inr ⟨next, taken, before, other, after, reached, rfl, run, fails⟩

/-- Where one step puts one item behind those that a value shows, and every front of the items that
a value shows is shown by some value, folding succeeds exactly with the value that shows all items.
Induction on the items.
-/
theorem foldlM_eq_ok_iff_shown {shown : β → List α} (injective : Function.Injective shown)
    (step_iff
      : ∀ {reached item next},
          step reached item = .ok next ↔ shown next = shown reached ++ [item])
    (front
      : ∀ {reached item after last},
          shown last = shown reached ++ item :: after
          → ∃ next, shown next = shown reached ++ [item])
    {items : List α} {start last : β}
    : items.foldlM step start = .ok last ↔ shown last = shown start ++ items := by
  induction items generalizing start with
  | nil =>
      rw [List.foldlM_nil, List.append_nil, injective.eq_iff]
      exact Except.ok.injEq start last ▸ eq_comm
  | cons item rest ih =>
      simp only [List.foldlM_cons, except_bind_eq_ok_iff, step_iff, ih]
      constructor
      · intro h
        rcases h with ⟨next, longer, whole⟩
        rw [whole, longer, List.append_assoc, List.singleton_append]
      · intro whole
        obtain ⟨next, longer⟩ := front whole
        refine ⟨next, longer, ?_⟩
        rw [whole, longer, List.append_assoc, List.singleton_append]

end Folds

/-- Of two lists under one injective function, one has one more value exactly where it has one more
item, which gives the value.
-/
theorem map_eq_map_concat_iff {α β : Type} {f : α → β} (injective : Function.Injective f)
    {items others : List α} {value : β}
    : items.map f = others.map f ++ [value]
      ↔ ∃ item, value = f item ∧ items = others ++ [item] := by
  constructor
  · intro whole
    obtain ⟨front, back, rfl, isFront, isBack⟩ := List.map_eq_append_iff.1 whole
    obtain ⟨item, rfl, rfl⟩ := List.map_eq_singleton_iff.1 isBack
    exact ⟨item, rfl, congrArg (· ++ [item]) (injective.list_map isFront)⟩
  · intro h
    rcases h with ⟨item, rfl, rfl⟩
    exact List.map_append

namespace Argument

/-- The argument is named, and its name in lower case is the key. -/
def Names (argument : Argument) (key : String) : Prop :=
  argument.name.map lower = some key

instance (argument : Argument) (key : String) : Decidable (argument.Names key) :=
  inferInstanceAs (Decidable (argument.name.map lower = some key))

/-- The argument is positional or names the key. -/
def Fits (argument : Argument) (key : String) : Prop :=
  argument.name = none ∨ argument.Names key

instance (argument : Argument) (key : String) : Decidable (argument.Fits key) :=
  inferInstanceAs (Decidable (_ ∨ _))

theorem Names.unique {argument : Argument} {key other : String}
    (h : argument.Names key) (h' : argument.Names other)
    : key = other :=
  Option.some.inj (h.symm.trans h')

theorem Names.isNamed {argument : Argument} {key : String} (h : argument.Names key)
    : ∃ name, argument.name = some name ∧ lower name = key := by
  simpa [Names] using h

theorem Names.name_ne_none {argument : Argument} {key : String} (h : argument.Names key)
    : argument.name ≠ none := by
  obtain ⟨name, named, -⟩ := h.isNamed
  rw [named]
  exact Option.some_ne_none name

end Argument

theorem Simple.takes_iff_fits (param : Simple) (argument : Argument)
    : param.takes argument = true ↔ argument.Fits param.key := by
  unfold Simple.takes Argument.Fits Argument.Names
  cases argument.name <;> simp

-----------------------------------------------------------------------------------------
-- Lookup by key
-----------------------------------------------------------------------------------------

/-- Among items of distinct keys the search for a key finds its only holder; the keys decide. -/
theorem find?_key_eq_some_iff {α : Type} {key : α → String} {items : List α} {name : String}
    {item : α} (distinct : (items.map key).Nodup)
    : items.find? (fun item => key item == name) = some item ↔ item ∈ items ∧ key item = name := by
  constructor
  · intro found
    exact ⟨List.mem_of_find?_eq_some found, by simpa using List.find?_some found⟩
  · intro h
    rcases h with ⟨member, rfl⟩
    cases found : items.find? (fun other => key other == key item) with
    | none => simpa using List.find?_eq_none.1 found item member
    | some other =>
        have same : key other = key item := by simpa using List.find?_some found
        rw [List.inj_on_of_nodup_map distinct (List.mem_of_find?_eq_some found) member same]

/-- Items of distinct keys are found alike in another order. -/
theorem find?_key_eq_of_perm {α : Type} {key : α → String} {items others : List α}
    (perm : others.Perm items) (distinct : (items.map key).Nodup) (name : String)
    : others.find? (fun item => key item == name) = items.find? (fun item => key item == name) := by
  have otherDistinct : (others.map key).Nodup := (perm.map key).nodup_iff.2 distinct
  apply Option.ext
  intro item
  rw [find?_key_eq_some_iff distinct, find?_key_eq_some_iff otherDistinct, perm.mem_iff]

/-- Pairs of distinct keys are looked up alike in another order. -/
theorem lookup_eq_of_perm {α : Type} {pairs others : List (String × α)} (perm : others.Perm pairs)
    (distinct : (pairs.map Prod.fst).Nodup) (key : String)
    : others.lookup key = pairs.lookup key := by
  rw [lookup_eq_map_find?, lookup_eq_map_find?, find?_key_eq_of_perm perm distinct]

/-- The table built from items of distinct keys holds each item's value under its key, by induction
on the items.
-/
theorem lookup_map_key {α β : Type} {key : α → String} {items : List α} (value : α → β) {item : α}
    (distinct : (items.map key).Nodup) (member : item ∈ items)
    : (items.map fun item => (key item, value item)).lookup (key item) = some (value item) := by
  induction items with
  | nil => simp at member
  | cons first rest ih =>
      obtain ⟨fresh, distinctRest⟩ := List.nodup_cons.1 distinct
      rcases List.mem_cons.1 member with rfl | later
      · simp
      · have other : (key item == key first) = false := by
          rw [beq_eq_false_iff_ne]
          intro same
          exact fresh (same ▸ List.mem_map_of_mem later)
        simp only [List.map_cons, List.lookup_cons, other]
        exact ih distinctRest later

/-- Looking up a key goes along with a function of the values, by induction on the pairs. -/
theorem lookup_map_snd {α β : Type} (f : α → β) (pairs : List (String × α)) (key : String)
    : (pairs.map fun (key, value) => (key, f value)).lookup key = (pairs.lookup key).map f := by
  induction pairs with
  | nil => rfl
  | cons pair rest ih =>
      obtain ⟨other, value⟩ := pair
      simp only [List.map_cons, List.lookup_cons, ih]
      cases key == other <;> rfl

namespace Group

theorem params_keys_nodup (group : Group) : (group.params.map Simple.key).Nodup :=
  group.keys_nodup

theorem names_nodup (group : Group) : (group.params.map Simple.name).Nodup := by
  have keys := group.params_keys_nodup
  rw [show Simple.key = lower ∘ Simple.name from rfl, ← List.map_map] at keys
  exact keys.of_map lower

/-- An argument means the parameter of a group whose key it names. -/
theorem find?_eq_some_iff {group : Group} {argument : Argument} {param : Simple}
    : group.find? argument.name = some param
      ↔ param ∈ group.params ∧ argument.Names param.key := by
  unfold find? Argument.Names
  cases argument.name with
  | none => simp
  | some name =>
      simp only [find?_key_eq_some_iff group.params_keys_nodup, Option.map_some,
        Option.some.injEq, eq_comm]

theorem find?_of_key {group : Group} {member : Simple} {name : String}
    (isMember : member ∈ group.params) (key : lower name = member.key)
    : group.find? (some name) = some member := by
  unfold find?
  exact (find?_key_eq_some_iff group.params_keys_nodup).2 ⟨isMember, key.symm⟩

theorem eq_of_key {group : Group} {param other : Simple} (h : param ∈ group.params)
    (h' : other ∈ group.params) (same : param.key = other.key)
    : param = other :=
  List.inj_on_of_nodup_map group.params_keys_nodup h h' same

end Group

/-- Required parameters stay in front of all others when none of what is put behind is required. -/
theorem pairwise_required_append {front back : List Param}
    (ordered : front.Pairwise fun earlier later =>
      later.isRequired = true → earlier.isRequired = true)
    (optional : ∀ later ∈ back, later.isRequired = false)
    : (front ++ back).Pairwise fun earlier later =>
        later.isRequired = true → earlier.isRequired = true := by
  refine List.pairwise_append.2 ⟨ordered, List.pairwise_of_forall_mem_list ?_, ?_⟩
  · intro earlier _ later isBehind required
    simp [optional later isBehind] at required
  · intro earlier _ later isBehind required
    simp [optional later isBehind] at required

theorem Entry.declared_injective : Function.Injective Entry.declared :=
  fun _ _ same => Entry.declared.inj same

namespace Schema

/-- A name means the parameter of a schema that has its key. -/
theorem find?_eq_some_iff {schema : Schema} {name : String} {param : Param}
    : schema.find? name = some param ↔ param ∈ schema.params ∧ param.key = lower name := by
  rw [find?, lookup_index]
  exact find?_key_eq_some_iff schema.keys_nodup

/-- The name of an argument means the parameter whose key the argument names. -/
theorem exists_find?_iff {schema : Schema} {argument : Argument} {param : Param}
    : (∃ name, argument.name = some name ∧ schema.find? name = some param)
      ↔ param ∈ schema.params ∧ argument.Names param.key := by
  unfold Argument.Names
  cases argument.name with
  | none => simp
  | some name => simp [find?_eq_some_iff, @eq_comm _ (lower name)]

/-- An argument names no parameter of a schema, or a plain one, or a group. -/
theorem names_cases (schema : Schema) (argument : Argument)
    : (∀ param ∈ schema.params, ¬ argument.Names param.key)
      ∨ (∃ param, .simple param ∈ schema.params ∧ argument.Names param.key)
      ∨ ∃ group, .repeating group ∈ schema.params ∧ argument.Names group.key := by
  by_cases known : ∃ param ∈ schema.params, argument.Names param.key
  · obtain ⟨param, declared, names⟩ := known
    cases param with
    | simple param => exact Or.inr (Or.inl ⟨param, declared, names⟩)
    | repeating group => exact Or.inr (Or.inr ⟨group, declared, names⟩)
  · exact Or.inl fun param declared names => known ⟨param, declared, names⟩

theorem eq_of_key {schema : Schema} {param other : Param} (h : param ∈ schema.params)
    (h' : other ∈ schema.params) (same : param.key = other.key)
    : param = other :=
  List.inj_on_of_nodup_map schema.keys_nodup h h' same

theorem eq_of_params {schema other : Schema} (h : schema.params = other.params)
    : schema = other := by
  cases schema
  cases other
  cases h
  rfl

/-- The declarations of the parameters of a schema. -/
def entries (schema : Schema) : List Entry :=
  schema.params.map Entry.declared

theorem entries_injective : Function.Injective entries :=
  fun _ _ same => eq_of_params (Entry.declared_injective.list_map same)

/-- The entries of a schema up to one of them are those of a schema. -/
theorem exists_entries_eq_concat {schema last : Schema} {entry : Entry} {after : List Entry}
    (whole : last.entries = schema.entries ++ entry :: after)
    : ∃ next : Schema, next.entries = schema.entries ++ [entry] := by
  have prefixOf := List.take_sublist (schema.entries.length + 1) last.params
  refine ⟨{
    params := last.params.take (schema.entries.length + 1)
    keys_nodup := last.keys_nodup.sublist (prefixOf.map Param.key)
    required_first := last.required_first.sublist prefixOf
  }, ?_⟩
  rw [entries, List.map_take, ← entries, whole, List.take_length_add_append]
  rfl

/-- One more entry is accepted exactly when a schema with it behind the others exists. -/
theorem extend_eq_ok_iff {schema final : Schema} {entry : Entry}
    : schema.extend entry = .ok final ↔ final.entries = schema.entries ++ [entry] := by
  rw [entries, entries, map_eq_map_concat_iff Entry.declared_injective]
  cases entry with
  | other datum => simp [extend]
  | declared param =>
      dsimp only [extend]
      constructor
      · intro extended
        by_cases misplaced : param.isRequired = true ∧ schema.params.any (!·.isRequired) = true
        · rw [dif_pos misplaced] at extended
          cases extended
        · rw [dif_neg misplaced] at extended
          by_cases known : param.key ∈ schema.params.map Param.key
          · rw [dif_pos known] at extended
            cases extended
          · rw [dif_neg known] at extended
            exact ⟨param, rfl, congrArg Schema.params (Except.ok.inj extended).symm⟩
      · intro h
        rcases h with ⟨_, ⟨⟩, whole⟩
        have ordered := final.required_first
        have distinct := final.keys_nodup
        rw [whole] at ordered distinct
        have placed : ¬ (param.isRequired = true
            ∧ schema.params.any (!·.isRequired) = true) := by
          intro h
          rcases h with ⟨required, misplaced⟩
          obtain ⟨earlier, member, notRequired⟩ := List.any_eq_true.1 misplaced
          have := (List.pairwise_append.1 ordered).2.2 earlier member param (by simp) required
          simp [this] at notRequired
        have fresh : param.key ∉ schema.params.map Param.key := by
          intro known
          rw [List.map_append, List.nodup_append] at distinct
          exact distinct.2.2 param.key known param.key (by simp) rfl
        rw [dif_neg placed, dif_neg fresh]
        exact congrArg Except.ok (eq_of_params whole.symm)

/-- Declarations are accepted exactly as the parameters of the schema that they declare. -/
theorem declare_eq_ok_iff {entries : List Entry} {schema : Schema}
    : declare entries = .ok schema ↔ entries = schema.params.map Entry.declared := by
  rw [declare, foldlM_eq_ok_iff_shown entries_injective extend_eq_ok_iff exists_entries_eq_concat]
  exact eq_comm

end Schema

-----------------------------------------------------------------------------------------
-- A small schema
-----------------------------------------------------------------------------------------

/-! A trade has an account and a side, any number of tags, and fills with a price each. -/

namespace Trade

def account : Simple :=
  {
    name := "Account"
    allowMultiple := false
    separator := defaultSeparator
    choices := none
    presence := .required
    name_visible := by decide
    separator_nonempty := by decide
  }

def side : Simple :=
  { account with name := "side", choices := some ["BUY", "SELL"], name_visible := by decide }

def tags : Simple :=
  {
    account with
    name := "tags"
    allowMultiple := true
    presence := .optional none
    name_visible := by decide
  }

def fill : Simple :=
  { account with name := "fill", name_visible := by decide }

def price : Simple :=
  {
    account with
    name := "price"
    presence := .optional (some "0")
    name_visible := by decide
  }

def fills : Group :=
  {
    identity := fill
    members := [price]
    identity_required := by decide
    identity_single := by decide
    keys_nodup := by decide
  }

def schema : Schema :=
  {
    params := [.simple account, .simple side, .simple tags, .repeating fills]
    keys_nodup := by decide
    required_first := by decide
  }

def entries : List Entry :=
  schema.params.map Entry.declared

def arguments : List (Option String) :=
  [some "joe", some "SIDE = buy", none, some "tags: a,b", some "c", some "fill: 1",
    some "price: 2", some "fill: 3"]

/-- A trade without tags and fills. -/
def bareArguments : List (Option String) :=
  [some "joe", some "buy"]

theorem declare_entries : Schema.declare entries = .ok schema :=
  Schema.declare_eq_ok_iff.2 rfl

end Trade

end ArgBinding
