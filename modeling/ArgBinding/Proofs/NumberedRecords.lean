import ArgBinding.Proofs.Completion
import Mathlib.Data.List.Count

/-! The log of binding. Its first record counts the arguments and the parameters, and each further
one is about a repetition that is complete. The repetitions of each group are numbered from one on
without a gap, also where binding fails on the way, and when it succeeds they are those of the
result.
-/

namespace ArgBinding

open ArgBinding.Text

-----------------------------------------------------------------------------------------
-- One more repetition
-----------------------------------------------------------------------------------------

/-- The record of one more repetition has the number behind those of its group, by induction on the
repetitions.
-/
theorem repetitionRecords_concat (before : List String) (groups : List Group) (group : Group)
    : repetitionRecords before (groups ++ [group])
      = repetitionRecords before groups
        ++ [.repetition ((before ++ groups.map Group.key).count group.key + 1) group.name] := by
  induction groups generalizing before with
  | nil => simp [repetitionRecords]
  | cons first rest ih =>
      have moved : (first.key :: before ++ rest.map Group.key).count group.key
          = (before ++ (first :: rest).map Group.key).count group.key := by
        rw [List.map_cons, List.cons_append]
        exact List.perm_middle.symm.count_eq group.key
      rw [List.cons_append, repetitionRecords, ih, moved]
      rfl

/-- Among declared groups those of one key are those of one group. -/
theorem Schema.count_key_eq {schema : Schema} {groups : List Group} {group : Group}
    (declared : ∀ other ∈ groups, .repeating other ∈ schema.params)
    (isDeclared : .repeating group ∈ schema.params)
    : (groups.map Group.key).count group.key = groups.count group := by
  rw [List.count_eq_countP, List.count_eq_countP, List.countP_map]
  refine List.countP_congr ?_
  intro other isOther
  simp only [Function.comp_apply, beq_iff_eq]
  constructor
  · intro same
    exact Param.repeating.inj (eq_of_key (declared other isOther) isDeclared same)
  · rintro rfl
    rfl

/-- The completed repetitions with their numbers, as they stand in the log: all are of declared
groups, and those of each group are numbered from one on.
-/
structure Progress.Recorded (schema : Schema) (progress : Progress)
    (records : List (Nat × Group))
    : Prop where
  logged
    : repetitionRecords [] (progress.repetitions.map Prod.fst)
      = records.map fun (number, group) => .repetition number group.name
  completed : records.map Prod.snd = progress.repetitions.map Prod.fst
  declared : ∀ group ∈ records.map Prod.snd, .repeating group ∈ schema.params
  numbered
    : ∀ group,
        (records.filter fun record => record.2 = group).map Prod.fst
        = List.range' 1 ((records.map Prod.snd).count group)

namespace Progress.Recorded

variable {schema : Schema} {progress : Progress} {records : List (Nat × Group)} {group : Group}

/-- Progress without repetitions has no records of any. -/
theorem nil (none : progress.repetitions = []) : progress.Recorded schema [] :=
  ⟨by rw [none]; rfl, by rw [none]; rfl, by simp, by simp⟩

/-- One more repetition of a declared group has the next number of the group in the log. -/
theorem concat (recorded : progress.Recorded schema records)
    (isDeclared : .repeating group ∈ schema.params) (table : Table)
    : Progress.Recorded schema
        { progress with repetitions := progress.repetitions ++ [(group, table)] }
        (records ++ [((records.map Prod.snd).count group + 1, group)]) := by
  refine ⟨?_, ?_, ?_, ?_⟩
  · rw [List.map_append, List.map_singleton, repetitionRecords_concat, recorded.logged,
      List.nil_append, ← recorded.completed, Schema.count_key_eq recorded.declared isDeclared,
      List.map_append, List.map_singleton]
  · rw [List.map_append, recorded.completed, List.map_append]
    rfl
  · intro other isOther
    rw [List.map_append] at isOther
    rcases List.mem_append.1 isOther with earlier | last
    · exact recorded.declared other earlier
    · rwa [List.mem_singleton.1 last]
  · intro other
    rw [List.filter_append, List.map_append, recorded.numbered other, List.map_append,
      List.count_append]
    by_cases same : group = other
    · subst same
      simp only [List.filter_singleton, decide_true, cond_true, List.map_singleton,
        List.count_singleton_self, List.range'_1_concat, Nat.add_comm 1]
    · simp [same]

end Progress.Recorded

-----------------------------------------------------------------------------------------
-- The whole run
-----------------------------------------------------------------------------------------

/-- One block adds at most one record, the next of its group. -/
theorem exists_recorded_of_bindBlock {schema : Schema} {progress next : Progress}
    {records : List (Nat × Group)} {first : Argument} {rest remaining : List Argument}
    (recorded : progress.Recorded schema records)
    (bound : bindBlock schema progress first rest = .ok (next, remaining))
    : ∃ more, more.length ≤ 1 ∧ next.Recorded schema (records ++ more) := by
  unfold bindBlock at bound
  split at bound
  · cases bound
  · split at bound
    · cases bound
    · obtain ⟨bindings, -, same⟩ := except_map_eq_ok_iff.1 bound
      cases same
      refine ⟨[], Nat.zero_le 1, ?_⟩
      rw [List.append_nil]
      exact ⟨recorded.logged, recorded.completed, recorded.declared, recorded.numbered⟩
    · rename_i group found
      obtain ⟨table, -, same⟩ := except_map_eq_ok_iff.1 bound
      cases same
      refine ⟨_, ?_, recorded.concat (Schema.find?_eq_some_iff.1 found).1 table⟩
      exact Nat.le_refl 1

/-- How far a run has come, also where it fails. -/
def progressReached : Except Halt Progress → Progress
  | .ok progress => progress
  | .error halt => halt.progress

/-- Binding by name only puts records behind those there are, by induction on the run. -/
theorem exists_recorded_of_bindNamed {schema : Schema} {progress : Progress}
    {records : List (Nat × Group)} {arguments : List Argument}
    (recorded : progress.Recorded schema records)
    : ∃ more,
        (progressReached (bindNamed schema progress arguments)).Recorded schema
          (records ++ more) := by
  fun_induction bindNamed schema progress arguments generalizing records with
  | case1 progress => exact ⟨[], by rwa [List.append_nil]⟩
  | case2 progress first rest error failed => exact ⟨[], by rwa [List.append_nil]⟩
  | case3 progress first rest next remaining bound ih =>
      obtain ⟨one, -, recorded⟩ := exists_recorded_of_bindBlock recorded bound
      obtain ⟨more, recorded⟩ := ih recorded
      exact ⟨one ++ more, by rwa [← List.append_assoc]⟩

/-- A run of all arguments is recorded, also where it fails. The walk over the leading parameters
completes no repetition.
-/
theorem exists_recorded (schema : Schema) (arguments : List Argument)
    : ∃ records, (progressReached (bindArguments schema arguments)).Recorded schema records := by
  unfold bindArguments
  cases bindLeading schema.params arguments [] with
  | error error => exact ⟨[], .nil rfl⟩
  | ok reached =>
      have start : Progress.Recorded schema { Progress.start with bindings := reached.1 } [] :=
        .nil rfl
      exact exists_recorded_of_bindNamed start

theorem Argument.length_ofTexts (texts : List (Option String))
    : (ofTexts texts).length = texts.countP Option.isSome := by
  rw [ofTexts, List.length_filterMap_eq_countP]
  simp only [Option.isSome_map]

theorem Schema.log_bind (schema : Schema) (replacer : Replacer) (arguments : List Argument)
    : (schema.bind replacer arguments).log
      = logOf schema arguments (progressReached (bindArguments schema arguments)) := by
  unfold bind
  cases bindArguments schema arguments <;> rfl

/-- A completed run holds one repetition of a group for each of its records. -/
theorem Progress.Recorded.length_repetitionsAt {schema : Schema} {progress : Progress}
    {records : List (Nat × Group)} {group : Group} (recorded : progress.Recorded schema records)
    (replacer : Replacer) (isDeclared : .repeating group ∈ schema.params)
    : ((schema.completed replacer progress).repetitionsAt group.key).length
      = (records.map Prod.snd).count group := by
  rw [Schema.repetitionsAt_completed isDeclared, repetitionsOf, List.length_filterMap_eq_countP,
    ← Schema.count_key_eq recorded.declared isDeclared, recorded.completed, List.count_eq_countP,
    List.countP_map, List.countP_map]
  refine List.countP_congr ?_
  intro repetition _
  simp only [Function.comp_apply, beq_iff_eq]
  split <;> simp_all

/-- The log of a call that does not ask for the help, on accepted declarations, begins with a record
that counts the arguments that are not missing and the parameters. Each further one is about a
declared group, and those of each group are numbered from one on, whether the call succeeds or not;
when it succeeds there are as many as the result has repetitions of the group. Any other call logs
nothing. Witness: binding one block adds the next record of its group or none.
-/
theorem bind_logs_numbered (entries : List Entry) (replacer : Replacer)
    (arguments : List (Option String))
    : (∀ schema,
        arguments ≠ [some usageRequest]
        → Schema.declare entries = .ok schema
        → ∃ records : List (Nat × Group),
            (bind entries replacer arguments).log.map Record.message
              = ("Binding " ++ toString (arguments.countP Option.isSome) ++ " arguments to "
                    ++ toString entries.length ++ " parameters")
                :: records.map (fun (number, group) =>
                    "Bound repetition " ++ toString number ++ " of group " ++ group.name)
            ∧ (∀ record ∈ records, .repeating record.2 ∈ schema.params)
            ∧ ∀ group,
                .repeating group ∈ schema.params
                → ∃ count,
                    (records.filter fun record => record.2 = group).map Prod.fst
                      = List.range' 1 count
                    ∧ ∀ bound,
                        (bind entries replacer arguments).result = .ok bound
                        → ∃ repetitions,
                            bound.repetitions (some group.name) = .ok repetitions
                            ∧ repetitions.length = count)
      ∧ (arguments = [some usageRequest] ∨ (∃ cause, Schema.declare entries = .error cause)
        → (bind entries replacer arguments).log = []) := by
  constructor
  · intro schema notUsage accepted
    have isLog : (bind entries replacer arguments).log
        = (schema.bind replacer (Argument.ofTexts arguments)).log := by
      rw [bind_of_accepted replacer accepted notUsage]
    obtain ⟨records, recorded⟩ := exists_recorded schema (Argument.ofTexts arguments)
    refine ⟨records, ?_, ?_, ?_⟩
    · have count : schema.params.length = entries.length := by
        rw [Schema.declare_eq_ok_iff.1 accepted, List.length_map]
      rw [isLog, Schema.log_bind, logOf, Argument.length_ofTexts, count, recorded.logged,
        List.map_cons, List.map_map]
      rfl
    · exact fun record isRecord => recorded.declared record.2 (List.mem_map_of_mem isRecord)
    · intro group isDeclared
      refine ⟨_, recorded.numbered group, ?_⟩
      intro bound isBound
      obtain ⟨-, declared, progress, accepted', run, done⟩ := bind_result_eq_ok_iff.1 isBound
      obtain rfl := Except.ok.inj (accepted'.symm.trans accepted)
      obtain ⟨-, rfl⟩ := complete_eq_ok_iff.1 done
      rw [run] at recorded
      exact ⟨_, Schema.repetitions_completed isDeclared rfl,
        recorded.length_repetitionsAt replacer isDeclared⟩
  · intro refused
    unfold bind
    dsimp only [Option.getD_some]
    split
    · rfl
    · rcases refused with isUsage | ⟨cause, fails⟩
      · contradiction
      · rw [fails]

/-- A trade that names its side again after two fills fails, and both fills are in the log. -/
theorem trade_logged_until_error
    : Trade.arguments ++ [some "side: sell"] ≠ [some usageRequest]
      ∧ Schema.declare Trade.entries = .ok Trade.schema
      ∧ (bind Trade.entries id (some (Trade.arguments ++ [some "side: sell"]))).result
        = .error (.binding (.repeated "side"))
      ∧ (∃ records : List (Nat × Group),
          (bind Trade.entries id (some (Trade.arguments ++ [some "side: sell"]))).log.map
              Record.message
            = "Binding 8 arguments to 4 parameters"
              :: records.map (fun (number, group) =>
                  "Bound repetition " ++ toString number ++ " of group " ++ group.name)
          ∧ records.length = 2
          ∧ ∃ count,
              (records.filter fun record => record.2 = Trade.fills).map Prod.fst
                = List.range' 1 count)
      ∧ (bind Trade.entries id [some usageRequest]).log = [] := by
  have notUsage : Trade.arguments ++ [some "side: sell"] ≠ [some usageRequest] := by decide
  obtain ⟨run, -⟩ := bind_logs_numbered Trade.entries id (Trade.arguments ++ [some "side: sell"])
  obtain ⟨-, empty⟩ := bind_logs_numbered Trade.entries id [some usageRequest]
  obtain ⟨records, messages, -, numbered⟩ := run Trade.schema notUsage Trade.declare_entries
  obtain ⟨count, inOrder, -⟩ := numbered Trade.fills (by decide)
  have two : records.length = 2 := by
    have lengths := congrArg List.length messages
    have three : (bind Trade.entries id (some (Trade.arguments ++ [some "side: sell"]))).log.length
        = 3 := by
      decide +kernel
    rw [List.length_map, three, List.length_cons, List.length_map] at lengths
    omega
  exact ⟨notUsage, Trade.declare_entries, by decide +kernel,
    ⟨records, messages, two, count, inOrder⟩, empty (Or.inl rfl)⟩

end ArgBinding
