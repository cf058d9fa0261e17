import ArgBinding.Proofs.Completion
import ArgBinding.Proofs.Rendering
import ArgBinding.Proofs.Runs
import Mathlib.Data.List.Forall2

/-! Spellings of arguments. Only the value of an argument and its name in lower case count. Two runs
on arguments that agree on both take the same steps: they bind the same values, or they fail for the
same reason, each on its own one of two arguments that correspond.
-/

namespace ArgBinding

open ArgBinding.Text

-----------------------------------------------------------------------------------------
-- Arguments and errors that agree
-----------------------------------------------------------------------------------------

namespace Argument

/-- The arguments have the same value, and either no name or names that agree in lower case. -/
structure Alike (argument other : Argument) : Prop where
  name : argument.name.map lower = other.name.map lower
  value : argument.value = other.value

/-- The texts are positional and differ in white space around them, or both consist of a name, a
sign that ends it and a value, and differ in the sign, in white space around name and value and in
the case of the name.
-/
inductive Respells : String → String → Prop where
  | positional {text other : String}
      (plain : text.toList.any isNameEnd = false)
      (otherPlain : other.toList.any isNameEnd = false)
      (same : trim text = trim other)
      : Respells text other
  | named {name value otherName otherValue : String} {sign otherSign : Char}
      (plain : name.toList.any isNameEnd = false)
      (ends : isNameEnd sign = true)
      (otherPlain : otherName.toList.any isNameEnd = false)
      (otherEnds : isNameEnd otherSign = true)
      (sameName : lower (trim name) = lower (trim otherName))
      (sameValue : trim value = trim otherValue)
      : Respells (name.push sign ++ value) (otherName.push otherSign ++ otherValue)

end Argument

/-- The assignments bring related arguments to the same parameter. -/
structure Assignment.Related (related : Argument → Argument → Prop) (assignment other : Assignment)
    : Prop where
  param : assignment.1 = other.1
  argument : related assignment.2 other.2

/-- The errors are the same, but each may quote its own one of two related arguments. -/
inductive BindingError.SameBut (related : Argument → Argument → Prop)
    : BindingError → BindingError → Prop where
  | same (e : BindingError) : SameBut related e e
  | ambiguous {argument other : Argument} (h : related argument other)
      : SameBut related (ambiguous argument.written) (ambiguous other.written)
  | unexpected {argument other : Argument} (h : related argument other)
      : SameBut related (unexpected argument.written) (unexpected other.written)

/-- Both runs came to the same progress, where they halted for the same reason. -/
structure Halt.SameBut (related : Argument → Argument → Prop) (halt other : Halt) : Prop where
  error : halt.error.SameBut related other.error
  progress : halt.progress = other.progress

/-- Both results are errors that agree or values that agree. -/
inductive Agree {ε α : Type} (errors : ε → ε → Prop) (values : α → α → Prop)
    : Except ε α → Except ε α → Prop where
  | error {e other : ε} (h : errors e other) : Agree errors values (.error e) (.error other)
  | ok {value other : α} (h : values value other) : Agree errors values (.ok value) (.ok other)

namespace Agree

variable {ε α β : Type} {errors : ε → ε → Prop} {values : α → α → Prop}

theorem refl (errors_refl : ∀ e, errors e e) (values_refl : ∀ value, values value value)
    (result : Except ε α)
    : Agree errors values result result := by
  cases result with
  | error e => exact .error (errors_refl e)
  | ok value => exact .ok (values_refl value)

theorem map {mapped : β → β → Prop} {result other : Except ε α} {f g : α → β}
    (maps : ∀ x y, values x y → mapped (f x) (g y)) (agree : Agree errors values result other)
    : Agree errors mapped (result.map f) (other.map g) := by
  cases agree with
  | error h => exact .error h
  | ok h => exact .ok (maps _ _ h)

end Agree

-----------------------------------------------------------------------------------------
-- Texts
-----------------------------------------------------------------------------------------

namespace Argument

theorem Respells.alike {text other : String} (respells : Respells text other)
    : (ofText text).Alike (ofText other) := by
  cases respells with
  | positional plain otherPlain same =>
      rw [ofText_of_plain plain, ofText_of_plain otherPlain]
      exact ⟨rfl, same⟩
  | named plain ends otherPlain otherEnds sameName sameValue =>
      rw [ofText_push_append plain ends, ofText_push_append otherPlain otherEnds]
      exact ⟨congrArg some sameName, sameValue⟩

/-- Texts that are respelled make arguments that are alike, wherever texts are missing. -/
theorem forall₂_alike_of_respells {texts others : List (Option String)}
    (respelled : List.Forall₂ Respells texts.reduceOption others.reduceOption)
    : List.Forall₂ Alike (ofTexts texts) (ofTexts others) := by
  rw [ofTexts_eq_map_reduceOption, ofTexts_eq_map_reduceOption, List.forall₂_map_left_iff,
    List.forall₂_map_right_iff]
  exact respelled.imp fun _ _ => Respells.alike

end Argument

-----------------------------------------------------------------------------------------
-- One argument
-----------------------------------------------------------------------------------------

section Alike

variable {argument other : Argument}

theorem Argument.Alike.names_iff (alike : argument.Alike other) (key : String)
    : argument.Names key ↔ other.Names key := by
  rw [Names, Names, alike.name]

theorem Argument.Alike.name_eq_none_iff (alike : argument.Alike other)
    : argument.name = none ↔ other.name = none := by
  rw [← Option.map_eq_none_iff, alike.name, Option.map_eq_none_iff]

theorem Simple.takes_of_alike (param : Simple) (alike : argument.Alike other)
    : param.takes argument = param.takes other := by
  have name := alike.name
  unfold takes
  cases isNamed : argument.name <;> cases otherNamed : other.name <;> simp_all

theorem Group.find?_of_alike (group : Group) (alike : argument.Alike other)
    : group.find? argument.name = group.find? other.name := by
  have name := alike.name
  unfold find?
  cases isNamed : argument.name <;> cases otherNamed : other.name <;> simp_all

theorem Argument.isPositional_of_alike (alike : argument.Alike other)
    : argument.isPositional = other.isPositional := by
  have name := congrArg Option.isNone alike.name
  rwa [Option.isNone_map, Option.isNone_map] at name

end Alike

-----------------------------------------------------------------------------------------
-- Runs
-----------------------------------------------------------------------------------------

theorem forall₂_takeWhile {α : Type} {related : α → α → Prop} {test : α → Bool} {xs ys : List α}
    (same : ∀ x y, related x y → test x = test y) (h : List.Forall₂ related xs ys)
    : List.Forall₂ related (xs.takeWhile test) (ys.takeWhile test) := by
  induction h with
  | nil => exact .nil
  | @cons x y xs ys head _ ih =>
      rw [List.takeWhile_cons, List.takeWhile_cons, ← same x y head]
      cases test x with
      | false => exact .nil
      | true => exact .cons head ih

theorem forall₂_head? {α : Type} {related : α → α → Prop} {xs ys : List α}
    (h : List.Forall₂ related xs ys)
    : Option.Rel related xs.head? ys.head? := by
  cases h with
  | nil => exact .none
  | cons head _ => exact .some head

section Related

variable {related : Argument → Argument → Prop}
  (alike : ∀ argument other, related argument other → argument.Alike other)

include alike

theorem Simple.forall₂_continuation (param : Simple) {rest others : List Argument}
    (h : List.Forall₂ related rest others)
    : List.Forall₂ related (param.continuation rest) (param.continuation others) := by
  unfold continuation
  split
  · exact forall₂_takeWhile (fun _ _ both => param.takes_of_alike (alike _ _ both)) h
  · exact .nil

/-- A repetition goes on alike with related arguments, by induction on them. -/
theorem Group.forall₂_continuationFrom (group : Group) {rest others : List Argument}
    (h : List.Forall₂ related rest others) (bound : List String)
    : List.Forall₂ (Assignment.Related related)
        (group.continuationFrom bound rest) (group.continuationFrom bound others) := by
  induction h generalizing bound with
  | nil => exact .nil
  | cons head _ ih =>
      simp only [continuationFrom, ← group.find?_of_alike (alike _ _ head)]
      split
      · exact .nil
      · split
        · exact .nil
        · exact .cons ⟨rfl, head⟩ (ih _)

/-- Related arguments bring the same to the same parameters, by induction on the assignments. -/
theorem bindAssigned_of_related {assignments others : List Assignment}
    (h : List.Forall₂ (Assignment.Related related) assignments others)
    (bound : List Binding)
    : bindAssigned assignments bound = bindAssigned others bound := by
  induction h generalizing bound with
  | nil => rfl
  | cons head _ ih =>
      rw [bindAssigned_cons, bindAssigned_cons, head.param, (alike _ _ head.argument).value]
      congr 1
      funext reached
      exact ih reached

theorem bindAssigned_map_of_related (param : Simple) {arguments others : List Argument}
    (h : List.Forall₂ related arguments others) (bound : List Binding)
    : bindAssigned (arguments.map (param, ·)) bound
      = bindAssigned (others.map (param, ·)) bound := by
  refine bindAssigned_of_related alike ?_ bound
  rw [List.forall₂_map_left_iff, List.forall₂_map_right_iff]
  exact h.imp fun _ _ both => ⟨rfl, both⟩

theorem Group.bindRepetition_agree (group : Group) {assignments others : List Assignment}
    {next? otherNext? : Option Argument}
    (h : List.Forall₂ (Assignment.Related related) assignments others)
    (next : Option.Rel related next? otherNext?)
    : Agree (BindingError.SameBut related) Eq (group.bindRepetition assignments next?)
        (group.bindRepetition others otherNext?) := by
  unfold bindRepetition
  rw [bindAssigned_of_related alike h []]
  cases bindAssigned others [] with
  | error e => exact .error (.same e)
  | ok bindings =>
      cases next with
      | none => exact .refl .same (fun _ => rfl) _
      | @some next otherNext both =>
          simp only [Argument.isPositional_of_alike (alike _ _ both)]
          split
          · exact .error (.ambiguous both)
          · exact .refl .same (fun _ => rfl) _

/-- One block is bound alike, and related arguments are left. -/
theorem bindBlock_agree (schema : Schema) (progress : Progress) {first other : Argument}
    {rest others : List Argument} (firsts : related first other)
    (h : List.Forall₂ related rest others)
    : Agree (BindingError.SameBut related)
        (fun reached otherReached =>
          reached.1 = otherReached.1 ∧ List.Forall₂ related reached.2 otherReached.2)
        (bindBlock schema progress first rest) (bindBlock schema progress other others) := by
  have both := alike _ _ firsts
  rcases schema.names_cases first with unknown | ⟨param, declared, names⟩ | ⟨group, declared, names⟩
  · have otherUnknown : ∀ param ∈ schema.params, ¬ other.Names param.key :=
      fun param declared => (both.names_iff param.key).not.1 (unknown param declared)
    rw [bindBlock_of_unknown unknown, bindBlock_of_unknown otherUnknown]
    by_cases positional : first.name = none
    · rw [if_pos positional, if_pos (both.name_eq_none_iff.1 positional)]
      exact .error (.ambiguous firsts)
    · rw [if_neg positional, if_neg (both.name_eq_none_iff.not.1 positional)]
      exact .error (.unexpected firsts)
  · have following := param.forall₂_continuation alike h
    rw [bindBlock_of_simple declared names,
      bindBlock_of_simple declared ((both.names_iff param.key).1 names),
      bindAssigned_map_of_related alike param (.cons firsts following), following.length_eq]
    refine Agree.map ?_ (.refl .same (fun _ => rfl) _)
    rintro bindings _ rfl
    exact ⟨rfl, List.forall₂_drop _ h⟩
  · have following := group.forall₂_continuationFrom alike h [group.identity.key]
    have left := List.forall₂_drop (group.continuation rest).length h
    have size : (group.continuation rest).length = (group.continuation others).length :=
      following.length_eq
    rw [bindBlock_of_repeating declared names,
      bindBlock_of_repeating declared ((both.names_iff group.key).1 names), ← size]
    refine Agree.map ?_
      (group.bindRepetition_agree alike (.cons ⟨rfl, firsts⟩ following) (forall₂_head? left))
    rintro table _ rfl
    exact ⟨rfl, left⟩

/-- Binding by name agrees on related arguments, by induction on the run. -/
theorem bindNamed_agree (schema : Schema) (progress : Progress) {arguments others : List Argument}
    (h : List.Forall₂ related arguments others)
    : Agree (Halt.SameBut related) Eq (bindNamed schema progress arguments)
        (bindNamed schema progress others) := by
  fun_induction bindNamed schema progress arguments generalizing others with
  | case1 progress =>
      cases h
      rw [bindNamed]
      exact .ok rfl
  | case2 progress first rest error failed =>
      obtain ⟨other, otherRest, firsts, rests, rfl⟩ := List.forall₂_cons_left_iff.1 h
      have blocks := bindBlock_agree alike schema progress firsts rests
      rw [failed] at blocks
      rw [bindNamed_cons]
      generalize bindBlock schema progress other otherRest = block at blocks
      cases blocks with
      | error same => exact .error ⟨same, rfl⟩
  | case3 progress first rest next remaining bound ih =>
      obtain ⟨other, otherRest, firsts, rests, rfl⟩ := List.forall₂_cons_left_iff.1 h
      have blocks := bindBlock_agree alike schema progress firsts rests
      rw [bound] at blocks
      rw [bindNamed_cons]
      generalize bindBlock schema progress other otherRest = block at blocks
      cases blocks with
      | @ok _ reached same =>
          obtain ⟨rfl, left⟩ := same
          exact ih left

/-- The walk over the leading parameters fails alike or leaves related arguments, by induction on
the parameters.
-/
theorem bindLeading_agree (params : List Param) {arguments others : List Argument}
    (h : List.Forall₂ related arguments others) (bindings : List Binding)
    : Agree Eq
        (fun reached otherReached =>
          reached.1 = otherReached.1 ∧ List.Forall₂ related reached.2 otherReached.2)
        (bindLeading params arguments bindings) (bindLeading params others bindings) := by
  induction params generalizing arguments others bindings with
  | nil =>
      simp only [bindLeading]
      exact .ok ⟨rfl, h⟩
  | cons param params ih =>
      cases param with
      | repeating group =>
          simp only [bindLeading]
          exact .ok ⟨rfl, h⟩
      | simple param =>
          cases h with
          | nil =>
              simp only [bindLeading]
              exact .ok ⟨rfl, .nil⟩
          | @cons first other rest others firsts rests =>
              have following := param.forall₂_continuation alike rests
              rw [bindLeading, bindLeading, ← param.takes_of_alike (alike _ _ firsts)]
              split
              · dsimp only
                rw [bindAssigned_map_of_related alike param (.cons firsts following),
                  following.length_eq]
                split
                · exact .error rfl
                · exact ih (List.forall₂_drop _ rests) _
              · exact .ok ⟨rfl, .cons firsts rests⟩

theorem bindArguments_agree (schema : Schema) {arguments others : List Argument}
    (h : List.Forall₂ related arguments others)
    : Agree (Halt.SameBut related) Eq (bindArguments schema arguments)
        (bindArguments schema others) := by
  have walks := bindLeading_agree alike schema.params h []
  unfold bindArguments
  generalize bindLeading schema.params arguments [] = walk at walks
  generalize bindLeading schema.params others [] = otherWalk at walks
  cases walks with
  | error same =>
      subst same
      exact .error ⟨.same _, rfl⟩
  | @ok reached otherReached same =>
      obtain ⟨bindings, rest⟩ := reached
      obtain ⟨rfl, left⟩ := same
      exact bindNamed_agree alike schema _ left

/-- Calls on related arguments log the same and fail alike or succeed with the same result. -/
theorem Schema.bind_agree (schema : Schema) (replacer : Replacer) {arguments others : List Argument}
    (h : List.Forall₂ related arguments others)
    : (schema.bind replacer others).log = (schema.bind replacer arguments).log
      ∧ Agree (BindingError.SameBut related) Eq (schema.bind replacer arguments).result
          (schema.bind replacer others).result := by
  have runs := bindArguments_agree alike schema h
  unfold Schema.bind logOf
  rw [h.length_eq]
  generalize bindArguments schema arguments = run at runs ⊢
  generalize bindArguments schema others = otherRun at runs ⊢
  cases runs with
  | error same => exact ⟨by simp only [same.progress], .error same.error⟩
  | ok same =>
      subst same
      exact ⟨rfl, .refl .same (fun _ => rfl) _⟩

end Related

theorem BindingError.SameBut.imp {related wider : Argument → Argument → Prop}
    {e other : BindingError} (implies : ∀ x y, related x y → wider x y)
    (same : SameBut related e other)
    : SameBut wider e other := by
  cases same with
  | same => exact .same e
  | ambiguous h => exact .ambiguous (implies _ _ h)
  | unexpected h => exact .unexpected (implies _ _ h)

/-- Respelled texts make arguments that are alike. On arguments that are alike two calls succeed
with the same result, or they fail with errors that are the same but for the argument that each
quotes, which stand in the same place. Witness: two runs on arguments that are paired and alike.
-/
theorem bind_alike {entries : List Entry} {schema : Schema}
    {arguments others : List (Option String)} (replacer : Replacer)
    (accepted : Schema.declare entries = .ok schema) (notUsage : arguments ≠ [some usageRequest])
    (otherNotUsage : others ≠ [some usageRequest])
    : (List.Forall₂ Argument.Respells arguments.reduceOption others.reduceOption
        → List.Forall₂ Argument.Alike (Argument.ofTexts arguments) (Argument.ofTexts others))
      ∧ (List.Forall₂ Argument.Alike (Argument.ofTexts arguments) (Argument.ofTexts others)
        → (bind entries replacer others).log = (bind entries replacer arguments).log
          ∧ ((∃ bound,
                (bind entries replacer arguments).result = .ok bound
                ∧ (bind entries replacer others).result = .ok bound)
            ∨ ∃ e other,
                (bind entries replacer arguments).result = .error (.binding e)
                ∧ (bind entries replacer others).result = .error (.binding other)
                ∧ e.SameBut
                    (fun first second =>
                      (first, second)
                        ∈ (Argument.ofTexts arguments).zip (Argument.ofTexts others))
                    other)) := by
  refine ⟨Argument.forall₂_alike_of_respells, fun alike => ?_⟩
  -- The errors quote arguments that are not only alike but stand in the same place.
  have paired : List.Forall₂
      (fun first second =>
        first.Alike second
        ∧ (first, second) ∈ (Argument.ofTexts arguments).zip (Argument.ofTexts others))
      (Argument.ofTexts arguments) (Argument.ofTexts others) :=
    List.forall₂_iff_zip.2
      ⟨alike.length_eq, fun member => ⟨(List.forall₂_iff_zip.1 alike).2 member, member⟩⟩
  obtain ⟨log, results⟩ := Schema.bind_agree (fun _ _ both => both.1) schema replacer paired
  rw [bind_of_accepted replacer accepted notUsage, bind_of_accepted replacer accepted otherNotUsage]
  refine ⟨log, ?_⟩
  generalize (schema.bind replacer (Argument.ofTexts arguments)).result = result at results ⊢
  generalize (schema.bind replacer (Argument.ofTexts others)).result = otherResult at results ⊢
  cases results with
  | error same => exact Or.inr ⟨_, _, rfl, rfl, same.imp fun _ _ both => both.2⟩
  | ok same =>
      subst same
      exact Or.inl ⟨_, rfl, rfl⟩

/-- A trade in other spellings: other white space, signs and cases, and missing texts elsewhere. -/
def Trade.respelled : List (Option String) :=
  [none, some " joe", some "side:buy", some "Tags=a,b ", some "c", some "FILL : 1",
    some "price= 2", none, some "Fill:3"]

theorem trade_respelled
    : Schema.declare Trade.entries = .ok Trade.schema
      ∧ Trade.arguments ≠ [some usageRequest]
      ∧ Trade.respelled ≠ [some usageRequest]
      ∧ List.Forall₂ Argument.Respells Trade.arguments.reduceOption Trade.respelled.reduceOption
      ∧ ∃ bound,
          (bind Trade.entries id Trade.arguments).result = .ok bound
          ∧ (bind Trade.entries id Trade.respelled).result = .ok bound := by
  have notUsage : Trade.arguments ≠ [some usageRequest] := by decide
  have otherNotUsage : Trade.respelled ≠ [some usageRequest] := by decide
  have joe : Argument.Respells "joe" " joe" := .positional rfl rfl (by decide)
  have side : Argument.Respells "SIDE = buy" "side:buy" :=
    @Argument.Respells.named "SIDE " " buy" "side" "buy" '=' ':' rfl rfl rfl rfl (by decide)
      (by decide)
  have tags : Argument.Respells "tags: a,b" "Tags=a,b " :=
    @Argument.Respells.named "tags" " a,b" "Tags" "a,b " ':' '=' rfl rfl rfl rfl (by decide)
      (by decide)
  have tag : Argument.Respells "c" "c" := .positional rfl rfl rfl
  have first : Argument.Respells "fill: 1" "FILL : 1" :=
    @Argument.Respells.named "fill" " 1" "FILL " " 1" ':' ':' rfl rfl rfl rfl (by decide) rfl
  have price : Argument.Respells "price: 2" "price= 2" :=
    @Argument.Respells.named "price" " 2" "price" " 2" ':' '=' rfl rfl rfl rfl rfl rfl
  have second : Argument.Respells "fill: 3" "Fill:3" :=
    @Argument.Respells.named "fill" " 3" "Fill" "3" ':' ':' rfl rfl rfl rfl (by decide)
      (by decide)
  have respelled
      : List.Forall₂ Argument.Respells Trade.arguments.reduceOption Trade.respelled.reduceOption :=
    .cons joe (.cons side (.cons tags (.cons tag (.cons first (.cons price (.cons second .nil))))))
  refine ⟨Trade.declare_entries, notUsage, otherNotUsage, respelled, ?_⟩
  obtain ⟨alike, agree⟩ := bind_alike id Trade.declare_entries notUsage otherNotUsage
  rcases (agree (alike respelled)).2 with both | ⟨e, -, fails, -⟩
  · exact both
  · obtain ⟨bound, isBound⟩ := Trade.exists_bound
    cases isBound.symm.trans fails

end ArgBinding
