import ArgBinding.Proofs.MoreArguments

/-! Parameters that are supplied again. A repetition of a group ends before an argument that names a
parameter of a single value again, and the walk over the leading parameters passes each of them
once; so the error arises only where binding by name meets a plain parameter of a single value that
an earlier argument was bound to.
-/

namespace ArgBinding

open ArgBinding.Text

-----------------------------------------------------------------------------------------
-- One parameter
-----------------------------------------------------------------------------------------

section Parameter

variable {param : Simple} {bindings next : List Binding} {text key name : String}

/-- Binding a text leaves what is bound under another key. -/
theorem boundValues_of_bindText (bound : param.bindText text bindings = .ok next)
    (other : param.key ≠ key)
    : boundValues key next = boundValues key bindings := by
  obtain ⟨-, -, rfl⟩ := Simple.bindText_eq_ok_iff.1 bound
  rw [boundValues_append, boundValues_map, if_neg other, List.append_nil]

/-- Binding arguments to one parameter leaves what is bound under another key, by induction on the
arguments.
-/
theorem boundValues_of_bindAssigned {arguments : List Argument}
    (bound : bindAssigned (arguments.map (param, ·)) bindings = .ok next)
    (other : param.key ≠ key)
    : boundValues key next = boundValues key bindings := by
  induction arguments generalizing bindings with
  | nil =>
      obtain rfl : bindings = next := Except.ok.inj bound
      rfl
  | cons first rest ih =>
      rw [List.map_cons, bindAssigned_cons, except_bind_eq_ok_iff] at bound
      obtain ⟨middle, isFirst, bound⟩ := bound
      rw [ih bound, boundValues_of_bindText isFirst other]

/-- Binding assigned arguments fails for a second value on the first that meets one. -/
theorem bindAssigned_eq_repeated_iff {assignments : List Assignment}
    : bindAssigned assignments bindings = .error (.repeated name)
      ↔ ∃ before assignment after reached,
          assignments = before ++ assignment :: after
          ∧ bindAssigned before bindings = .ok reached
          ∧ assignment.1.allowMultiple = false
          ∧ boundValues assignment.1.key reached ≠ []
          ∧ assignment.1.name = name := by
  unfold bindAssigned
  simp only [foldlM_eq_error_iff, Simple.bindText_eq_repeated_iff]

/-- A plain parameter fails for a second value with the first of some arguments, if at all: only a
parameter of several values takes more of them.
-/
theorem Simple.bindAssigned_continuation_eq_repeated_iff {first : Argument}
    {rest : List Argument}
    : bindAssigned ((first :: param.continuation rest).map (param, ·)) bindings
        = .error (.repeated name)
      ↔ param.allowMultiple = false
        ∧ boundValues param.key bindings ≠ []
        ∧ param.name = name := by
  cases several : param.allowMultiple with
  | false =>
      have alone : param.continuation rest = [] := by simp [continuation, several]
      rw [alone, List.map_singleton, bindAssigned_cons, except_bind_eq_error_iff,
        bindText_eq_repeated_iff]
      simp [several, bindAssigned, pure, Except.pure]
  | true =>
      rw [bindAssigned_eq_repeated_iff]
      refine iff_of_false ?_ (by simp)
      rintro ⟨before, assignment, after, reached, split, -, single, -⟩
      obtain ⟨argument, -, rfl⟩ := List.mem_map.1 (split ▸ List.mem_append_cons_self)
      simp [several] at single

end Parameter

-----------------------------------------------------------------------------------------
-- Repetitions of a group
-----------------------------------------------------------------------------------------

namespace Group

variable {group : Group} {first : Argument} {rest : List Argument} {before after : List Assignment}
  {assignment : Assignment} {reached : List Binding}

/-- Each argument that goes on with a repetition goes to a parameter of several values or to one
without a value. Induction on the arguments: nothing is bound under a key other than those that are
passed along.
-/
theorem free_of_continuationFrom {keys : List String} {bindings : List Binding}
    (unbound : ∀ key, key ∉ keys → boundValues key bindings = [])
    (split : group.continuationFrom keys rest = before ++ assignment :: after)
    (run : bindAssigned before bindings = .ok reached)
    : assignment.1.allowMultiple = true ∨ boundValues assignment.1.key reached = [] := by
  induction rest generalizing keys bindings before with
  | nil => simp [continuationFrom] at split
  | cons argument rest ih =>
      by_cases room : group.HasRoom keys argument
      · obtain ⟨member, isMember, names, free⟩ := room
        rw [continuationFrom_cons_of_room isMember names free] at split
        cases before with
        | nil =>
            obtain ⟨rfl, -⟩ := List.cons.inj split
            obtain rfl : bindings = reached := Except.ok.inj run
            exact free.imp_right (unbound member.key)
        | cons earlier before =>
            obtain ⟨rfl, behind⟩ := List.cons.inj split
            rw [bindAssigned_cons, except_bind_eq_ok_iff] at run
            obtain ⟨next, bound, run⟩ := run
            refine ih ?_ behind run
            intro key fresh
            rw [List.mem_cons, not_or] at fresh
            rw [boundValues_of_bindText bound (Ne.symm fresh.1), unbound key fresh.2]
      · rw [continuationFrom_cons_of_full room] at split
        simp at split

/-- Each argument of a repetition goes to a parameter of several values or to one without a value.
The first goes to the identity, when nothing is bound.
-/
theorem free_of_repetition
    (split : (group.identity, first) :: group.continuation rest = before ++ assignment :: after)
    (run : bindAssigned before [] = .ok reached)
    : assignment.1.allowMultiple = true ∨ boundValues assignment.1.key reached = [] := by
  cases before with
  | nil =>
      obtain rfl : [] = reached := Except.ok.inj run
      exact Or.inr rfl
  | cons earlier before =>
      obtain ⟨rfl, behind⟩ := List.cons.inj split
      rw [bindAssigned_cons, except_bind_eq_ok_iff] at run
      obtain ⟨next, bound, run⟩ := run
      refine free_of_continuationFrom ?_ behind run
      intro key fresh
      exact boundValues_of_bindText bound (Ne.symm (mt List.mem_singleton.2 fresh))

theorem bindRepetition_ne_repeated {next? : Option Argument} {name : String}
    : group.bindRepetition ((group.identity, first) :: group.continuation rest) next?
      ≠ .error (.repeated name) := by
  intro fails
  rw [bindRepetition, except_bind_eq_error_iff] at fails
  rcases fails with fails | ⟨bindings, -, fails⟩
  · obtain ⟨before, assignment, after, reached, split, run, single, full, -⟩ :=
      bindAssigned_eq_repeated_iff.1 fails
    rcases free_of_repetition split run with several | free
    · exact Bool.false_ne_true (single.symm.trans several)
    · exact full free
  · have settled : settleAll (.ofMissingMember group.name) bindings group.params
        ≠ .error (.repeated name) :=
      fun fails => not_inArgument_of_settleAll fails trivial
    cases next? with
    | none => exact settled fails
    | some next =>
        dsimp only at fails
        split at fails
        · cases fails
        · exact settled fails

end Group

-----------------------------------------------------------------------------------------
-- Runs
-----------------------------------------------------------------------------------------

/-- The walk over the leading parameters never fails for a second value, by induction on the walk:
the parameters in front of it have distinct keys, and nothing is bound under them.
-/
theorem bindLeading_ne_repeated {params : List Param} {arguments : List Argument}
    {bindings : List Binding} {name : String} (distinct : (params.map Param.key).Nodup)
    (unbound : ∀ param ∈ params, boundValues param.key bindings = [])
    : bindLeading params arguments bindings ≠ .error (.repeated name) := by
  fun_induction bindLeading params arguments bindings with
  | case1 param params first rest bindings takes following error failed =>
      rintro ⟨⟩
      obtain ⟨-, full, -⟩ := Simple.bindAssigned_continuation_eq_repeated_iff.1 failed
      exact full (unbound (.simple param) List.mem_cons_self)
  | case2 param params first rest bindings takes following reached bound ih =>
      obtain ⟨fresh, distinct⟩ := List.nodup_cons.1 distinct
      refine ih distinct ?_
      intro other member
      have apart : param.key ≠ other.key :=
        fun same => fresh (List.mem_map.2 ⟨other, member, same.symm⟩)
      rw [boundValues_of_bindAssigned bound apart]
      exact unbound other (List.mem_cons_of_mem _ member)
  | case3 => simp
  | case4 => simp

/-- Binding by name fails for a second value exactly on an argument that names a plain parameter of
a single value that has one.
-/
theorem bindBlock_eq_repeated_iff {schema : Schema} {progress : Progress} {first : Argument}
    {rest : List Argument} {name : String}
    : bindBlock schema progress first rest = .error (.repeated name)
      ↔ ∃ param,
          .simple param ∈ schema.params
          ∧ first.Names param.key
          ∧ param.allowMultiple = false
          ∧ boundValues param.key progress.bindings ≠ []
          ∧ param.name = name := by
  constructor
  · intro fails
    rcases schema.names_cases first with unknown | ⟨param, declared, names⟩ | ⟨group, declared,
      names⟩
    · rw [bindBlock_of_unknown unknown, Except.error.injEq] at fails
      split at fails <;> cases fails
    · rw [bindBlock_of_simple declared names, except_map_eq_error_iff] at fails
      exact ⟨param, declared, names, Simple.bindAssigned_continuation_eq_repeated_iff.1 fails⟩
    · rw [bindBlock_of_repeating declared names, except_map_eq_error_iff] at fails
      exact absurd fails Group.bindRepetition_ne_repeated
  · intro h
    rcases h with ⟨param, declared, names, again⟩
    rw [bindBlock_of_simple declared names, except_map_eq_error_iff]
    exact Simple.bindAssigned_continuation_eq_repeated_iff.2 again

/-- An argument names the parameter behind arguments that were bound, one of them to the parameter.
-/
def Schema.SuppliesAgain (schema : Schema) (arguments : List Argument) (param : Simple) : Prop :=
  ∃ leading named earlier again behind,
    schema.PartialCut arguments leading named (again :: behind)
    ∧ Bindable (leading ++ named)
    ∧ Block.mk (.simple param) earlier [] ∈ leading ++ named
    ∧ again.Names param.key

/-- A parameter of a single value has a value of bound blocks exactly where one of them is its own,
with one argument.
-/
theorem boundValues_progressOf_ne_nil_iff {schema : Schema} {blocks : List Block} {param : Simple}
    (declared : ∀ block ∈ blocks, block.param ∈ schema.params)
    (shaped : ∀ block ∈ blocks, block.Shaped) (bindable : Bindable blocks)
    (isDeclared : .simple param ∈ schema.params) (single : param.allowMultiple = false)
    : boundValues param.key (progressOf blocks).bindings ≠ []
      ↔ ∃ earlier, Block.mk (.simple param) earlier [] ∈ blocks := by
  rw [progressOf, boundValues_bindingsOf, ne_eq, List.eq_nil_iff_forall_not_mem, not_forall_not]
  simp only [mem_assignedValues]
  constructor
  · rintro ⟨value, assignment, isAssigned, same, -⟩
    obtain rfl := eq_of_mem_plainAssignments declared isDeclared isAssigned same
    obtain ⟨⟨owner, first, following⟩, isBlock, isPlain⟩ := List.mem_flatMap.1 isAssigned
    cases owner with
    | repeating group => cases isPlain
    | simple owner =>
        obtain ⟨argument, -, rfl⟩ := List.mem_map.1 isPlain
        have alone : following = [] := by
          refine List.eq_nil_iff_forall_not_mem.2 ?_
          intro other member
          have several := (shaped _ isBlock other member).1
          exact Bool.false_ne_true (single.symm.trans several)
        exact ⟨first, alone ▸ isBlock⟩
  · rintro ⟨earlier, isBlock⟩
    have isAssigned : (param, earlier) ∈ plainAssignments blocks :=
      List.mem_flatMap.2 ⟨_, isBlock, List.mem_singleton_self _⟩
    have allowed := allows_of_mem_plainAssignments bindable.allowed isAssigned
    obtain ⟨value, only⟩ := Simple.exists_valuesFrom_eq single allowed
    exact ⟨value, _, isAssigned, rfl, only ▸ List.mem_singleton_self value⟩

/-- A run fails for a second value exactly where an argument names a plain parameter of a single
value behind one that was bound to it.
-/
theorem bindArguments_eq_repeated_iff {schema : Schema} {arguments : List Argument} {name : String}
    : (∃ halt,
        bindArguments schema arguments = .error halt ∧ halt.error = .repeated name)
      ↔ ∃ param,
          .simple param ∈ schema.params
          ∧ param.allowMultiple = false
          ∧ param.name = name
          ∧ schema.SuppliesAgain arguments param := by
  constructor
  · rintro ⟨halt, fails, isRepeated⟩
    rcases exists_partialCut_of_bindArguments_eq_error fails with walk | ⟨leading, named, again,
      behind, cut, run, failed⟩
    · rw [isRepeated] at walk
      exact absurd walk (bindLeading_ne_repeated schema.keys_nodup fun _ _ => rfl)
    · rw [isRepeated] at failed
      obtain ⟨param, declared, names, single, full, isName⟩ := bindBlock_eq_repeated_iff.1 failed
      obtain ⟨bindable, reached⟩ :=
        (bindBlocks_start_eq_ok_iff cut.declared cut.consecutive.shaped).1 run
      rw [reached, boundValues_progressOf_ne_nil_iff cut.declared cut.consecutive.shaped bindable
        declared single] at full
      obtain ⟨earlier, isBlock⟩ := full
      exact ⟨param, declared, single, isName,
        leading, named, earlier, again, behind, cut, bindable, isBlock, names⟩
  · rintro ⟨param, declared, single, isName, leading, named, earlier, again, behind, cut, bindable,
      isBlock, names⟩
    have full := (boundValues_progressOf_ne_nil_iff cut.declared cut.consecutive.shaped bindable
      declared single).2 ⟨earlier, isBlock⟩
    have failed : bindBlock schema _ again behind = .error (.repeated name) :=
      bindBlock_eq_repeated_iff.2 ⟨param, declared, names, single, full, isName⟩
    rw [cut.bindArguments_eq bindable, bindNamed_cons, failed]
    exact ⟨_, rfl, rfl⟩

/-- It takes two arguments to supply a parameter again. -/
theorem Schema.SuppliesAgain.ne_singleton {schema : Schema} {arguments : List Argument}
    {param : Simple} (suppliesAgain : schema.SuppliesAgain arguments param) (argument : Argument)
    : arguments ≠ [argument] := by
  obtain ⟨leading, named, earlier, again, behind, cut, -, isBlock, -⟩ := suppliesAgain
  rw [← cut.whole]
  intro only
  rcases List.append_eq_singleton_iff.1 only with ⟨none, -⟩ | ⟨-, none⟩
  · exact List.cons_ne_nil _ _ (List.flatMap_eq_nil_iff.1 none _ isBlock)
  · cases none

/-- No argument of a repetition is bound to a parameter of a single value that has a value, so a
repetition never fails for a second one, whatever arguments there are. A call on accepted
declarations fails for a second value exactly where an argument names a declared plain parameter of
a single value behind an argument that was bound to it. Witness: in a repetition nothing is bound
under the keys that are not passed along, and in the walk nothing under those in front of it.
-/
theorem bind_repeated_iff {entries : List Entry} {schema : Schema}
    {arguments : List (Option String)} (replacer : Replacer)
    (accepted : Schema.declare entries = .ok schema)
    : (∀ (group : Group) (first : Argument) (rest : List Argument),
        (∀ before assignment after reached,
          (group.identity, first) :: group.continuation rest = before ++ assignment :: after
          → bindAssigned before [] = .ok reached
          → assignment.1.allowMultiple = true ∨ boundValues assignment.1.key reached = [])
        ∧ ∀ next? name,
            group.bindRepetition ((group.identity, first) :: group.continuation rest) next?
            ≠ .error (.repeated name))
      ∧ ∀ name,
          (bind entries replacer arguments).result = .error (.binding (.repeated name))
          ↔ ∃ param,
              .simple param ∈ schema.params
              ∧ param.allowMultiple = false
              ∧ param.name = name
              ∧ schema.SuppliesAgain (Argument.ofTexts arguments) param := by
  constructor
  · intro group first rest
    exact ⟨fun before assignment after reached => Group.free_of_repetition,
      fun next? name => Group.bindRepetition_ne_repeated⟩
  · intro name
    by_cases usage : arguments = [some usageRequest]
    · subst usage
      refine iff_of_false (by simp [bind]) ?_
      rintro ⟨param, -, -, -, suppliesAgain⟩
      exact suppliesAgain.ne_singleton _ rfl
    · rw [← bindArguments_eq_repeated_iff, bind_result_eq replacer accepted usage]
      cases bindArguments schema (Argument.ofTexts arguments) with
      | error halt => simp
      | ok progress => cases lacking : schema.lacking? progress <;> simp [lacking]

/-- A trade that names its side again behind two fills fails for it. The price of a fill is bound
where nothing is bound to it, although the fill has a value.
-/
theorem trade_side_again
    : Schema.declare Trade.entries = .ok Trade.schema
      ∧ (bind Trade.entries id (some (Trade.arguments ++ [some "side: sell"]))).result
        = .error (.binding (.repeated "side"))
      ∧ (∃ param,
          .simple param ∈ Trade.schema.params
          ∧ param.allowMultiple = false
          ∧ param.name = "side"
          ∧ Trade.schema.SuppliesAgain
              (Argument.ofTexts (Trade.arguments ++ [some "side: sell"])) param)
      ∧ (Trade.fills.identity, Argument.ofText "fill: 1")
          :: Trade.fills.continuation [Argument.ofText "price: 2", Argument.ofText "fill: 3"]
        = [(Trade.fill, Argument.ofText "fill: 1")]
          ++ (Trade.price, Argument.ofText "price: 2") :: []
      ∧ bindAssigned [(Trade.fill, Argument.ofText "fill: 1")] []
        = .ok [{ param := Trade.fill, value := "1" }]
      ∧ (Trade.price.allowMultiple = true
        ∨ boundValues Trade.price.key [{ param := Trade.fill, value := "1" }] = []) := by
  have again : (bind Trade.entries id (some (Trade.arguments ++ [some "side: sell"]))).result
      = .error (.binding (.repeated "side")) := by decide +kernel
  have split : (Trade.fills.identity, Argument.ofText "fill: 1")
        :: Trade.fills.continuation [Argument.ofText "price: 2", Argument.ofText "fill: 3"]
      = [(Trade.fill, Argument.ofText "fill: 1")]
        ++ (Trade.price, Argument.ofText "price: 2") :: [] := by decide +kernel
  have bound : bindAssigned [(Trade.fill, Argument.ofText "fill: 1")] []
      = .ok [{ param := Trade.fill, value := "1" }] := by decide +kernel
  obtain ⟨repetitions, calls⟩ := bind_repeated_iff id Trade.declare_entries
  exact ⟨Trade.declare_entries, again, (calls "side").1 again, split, bound,
    (repetitions _ _ _).1 _ _ _ _ split bound⟩

end ArgBinding
