import ArgBinding.Proofs.Representation

/-! Truth as it is read. A parameter of a single value is true exactly where its only value spells
out truth when it is read, and false also where it has none. Nothing of the kind is read of a
parameter of several values or of a group: these are refused, even where they have no values.
-/

namespace ArgBinding

open ArgBinding.Text

/-- Truth is read under the name of the parameter, in any case, if it takes a single value: it is
true exactly where there is one value, which spells out truth when it is read. A parameter of
several values is refused.
-/
structure Simple.TellsTruth (param : Simple) (replacer : Replacer) (values : List String)
    (read : Option String → Reading)
    : Prop where
  single
    : param.allowMultiple = false
      → ∀ name,
          lower name = param.key
          → ∃ truth,
              (read (some name)).truth = .ok truth
              ∧ (truth = true ↔ ∃ value, values = [value] ∧ lower (replacer value) = "true")
  several
    : param.allowMultiple = true
      → ∀ name,
          lower name = param.key → (read (some name)).truth = .error (.multiple param.name)

/-- A parameter of a single value is true or false by the first of its values, and has no other. -/
theorem Simple.Bounds.tellsTruth {param : Simple} {replacer : Replacer} {values : List String}
    {read : Option String → Reading} (bounds : param.Bounds values)
    (reads
      : ∀ name,
          lower name = param.key
          → read (some name) = param.reading replacer (some name) values)
    : param.TellsTruth replacer values read := by
  refine ⟨?_, ?_⟩
  · intro single name key
    refine ⟨isTrue (values.head?.map replacer), ?_, ?_⟩
    · rw [reads name key, Reading.truth, Simple.value_reading single]
      rfl
    · have few := bounds.few single
      rcases values with _ | ⟨value, _ | ⟨next, rest⟩⟩
      · simp [isTrue]
      · simp [isTrue]
      · simp at few
  · intro several name key
    rw [reads name key, Reading.truth, Simple.value_reading_of_several several]
    rfl

/-- After a call that succeeds on accepted declarations, every plain parameter tells truth by its
values, and so does every parameter of a group by its values in each repetition. The name of a group
is refused. Witness: no parameter of a single value has more than one.
-/
theorem bind_tells_truth {entries : List Entry} {schema : Schema} {replacer : Replacer}
    {arguments : List (Option String)} {bound : Bound}
    (accepted : Schema.declare entries = .ok schema)
    (isBound : (bind entries replacer arguments).result = .ok bound)
    : (∀ param,
        .simple param ∈ schema.params
        → ∃ values,
            bound.contents.lookup param.name = some (.plain values)
            ∧ param.TellsTruth replacer values bound.read)
      ∧ ∀ group,
          .repeating group ∈ schema.params
          → ∃ repetitions,
              (∀ name,
                lower name = group.key
                → bound.repetitions (some name) = .ok repetitions
                  ∧ (bound.read (some name)).truth = .error (.isGroup (some name)))
              ∧ ∀ repetition ∈ repetitions,
                  ∀ member ∈ group.params,
                    ∃ values,
                      repetition.contents.lookup member.name = some values
                      ∧ member.TellsTruth replacer values repetition.read := by
  obtain ⟨-, leading, named, cut, admitted, rfl⟩ := (bind_result_eq_ok_iff_cut accepted).1 isBound
  refine ⟨?_, ?_⟩
  · intro param isDeclared
    refine ⟨_, Schema.lookup_contents_completed isDeclared, ?_⟩
    exact (admitted.bounds_at_completed replacer cut.declared cut.shaped isDeclared).tellsTruth
      fun name => Schema.read_completed isDeclared
  · intro group isDeclared
    refine ⟨(schema.completed replacer (progressOf (leading ++ named))).repetitionsAt group.key,
      ?_, ?_⟩
    · intro name key
      refine ⟨Schema.repetitions_completed isDeclared key, ?_⟩
      unfold Bound.read
      rw [Option.bind_some, Schema.find?_completed_of_key isDeclared key]
      rfl
    · intro repetition isRepetition member isMember
      obtain ⟨block, isBlock, isGroup, rfl⟩ :=
        (mem_repetitionsAt_completed cut.declared isDeclared).1 isRepetition
      refine ⟨_, Repetition.lookup_contents isMember, ?_⟩
      exact (Block.bounds_at_table (admitted.allowed block isBlock) (admitted.filled block isBlock)
        (cut.shaped block isBlock) isGroup isMember).tellsTruth
        fun name => Repetition.read_of_key isMember

/-- A replacer that vouches for an account. -/
def Trade.vouched : Replacer :=
  fun value => if value = "joe" then "True" else value

/-- In a trade the account is vouched for and the side is not; the tags and the fills are refused.
-/
theorem trade_tells_truth
    : Schema.declare Trade.entries = .ok Trade.schema
      ∧ ∃ bound repetitions,
          (bind Trade.entries Trade.vouched Trade.arguments).result = .ok bound
          ∧ (bound.read (some "Account")).truth = .ok true
          ∧ (bound.read (some "side")).truth = .ok false
          ∧ (bound.read (some "tags")).truth = .error (.multiple "tags")
          ∧ (bound.read (some "FILL")).truth = .error (.isGroup (some "FILL"))
          ∧ bound.repetitions (some "fill") = .ok repetitions
          ∧ ∀ repetition ∈ repetitions,
              ∃ truth, (repetition.read (some "PRICE")).truth = .ok truth := by
  have supplied : (bind Trade.entries Trade.vouched Trade.arguments).result.toOption.map
        (fun bound =>
          (bound.contents.lookup Trade.account.name, bound.contents.lookup Trade.side.name))
      = some (some (.plain ["joe"]), some (.plain ["BUY"])) := by
    decide +kernel
  obtain ⟨bound, bound_ok, contents⟩ := exists_eq_ok_of_map_toOption supplied
  obtain ⟨isAccount, isSide⟩ := Prod.mk.inj contents
  obtain ⟨plain, repeated⟩ := bind_tells_truth Trade.declare_entries bound_ok
  obtain ⟨accounts, same, tells⟩ := plain Trade.account (by decide)
  obtain rfl : ["joe"] = accounts :=
    Contents.plain.inj (Option.some.inj (isAccount.symm.trans same))
  obtain ⟨vouched, account, accountIff⟩ := tells.single rfl "Account" (by decide)
  obtain rfl : vouched = true := accountIff.2 ⟨"joe", rfl, by decide⟩
  obtain ⟨sides, same, tells⟩ := plain Trade.side (by decide)
  obtain rfl : ["BUY"] = sides := Contents.plain.inj (Option.some.inj (isSide.symm.trans same))
  obtain ⟨truth, side, sideIff⟩ := tells.single rfl "side" (by decide)
  obtain rfl : truth = false := by
    rw [← Bool.not_eq_true, sideIff]
    rintro ⟨value, only, spelled⟩
    obtain rfl := List.singleton_inj.1 only
    exact absurd spelled (by decide)
  obtain ⟨tags, -, tells⟩ := plain Trade.tags (by decide)
  obtain ⟨repetitions, named, members⟩ := repeated Trade.fills (by decide)
  refine ⟨Trade.declare_entries, bound, repetitions, bound_ok, account, side,
    tells.several rfl "tags" (by decide), (named "FILL" (by decide)).2,
    (named "fill" (by decide)).1, ?_⟩
  intro repetition isRepetition
  obtain ⟨values, -, tells⟩ := members repetition isRepetition Trade.price (by decide)
  obtain ⟨truth, price, -⟩ := tells.single rfl "PRICE" (by decide)
  exact ⟨truth, price⟩

/-- Tags that are not supplied are not false: they are refused. -/
theorem tags_refuse_truth
    : Schema.declare Trade.entries = .ok Trade.schema
      ∧ .simple Trade.tags ∈ Trade.schema.params
      ∧ ∃ bound,
          (bind Trade.entries id Trade.bareArguments).result = .ok bound
          ∧ bound.contents.lookup Trade.tags.name = some (.plain [])
          ∧ ¬ ∃ truth, (bound.read (some Trade.tags.name)).truth = .ok truth := by
  have untold : (bind Trade.entries id Trade.bareArguments).result.toOption.map
        (fun bound =>
          (bound.contents.lookup Trade.tags.name,
            (bound.read (some Trade.tags.name)).truth.toOption))
      = some (some (.plain []), none) := by
    decide +kernel
  obtain ⟨bound, bound_ok, read⟩ := exists_eq_ok_of_map_toOption untold
  obtain ⟨contents, refused⟩ := Prod.mk.inj read
  refine ⟨Trade.declare_entries, by decide, bound, bound_ok, contents, ?_⟩
  rintro ⟨truth, told⟩
  rw [told] at refused
  cases refused

end ArgBinding
