import ArgBinding.Proofs.ErrorOrigins

/-! Members that are missing from a repetition. A call fails by its arguments, with an error that
says what is wrong with them, unless a repetition ends without a required member and the name of its
group cannot be written out. The error is worded with the name as it is exactly when the name holds
no percent sign.
-/

namespace ArgBinding

open ArgBinding.Text

-----------------------------------------------------------------------------------------
-- Names with directives
-----------------------------------------------------------------------------------------

/-- A text without a percent sign is written out as it is, by induction on the text. -/
theorem expandDirectives_of_plain {cs : List Char} (plain : '%' ∉ cs)
    : expandDirectives cs = .ok cs := by
  fun_induction expandDirectives cs with
  | case1 => rfl
  | case2 rest ih => simp at plain
  | case3 rest notDoubled => simp at plain
  | case4 c rest notDoubled notPercent ih =>
      rw [ih fun member => plain (List.mem_cons_of_mem c member)]
      rfl

/-- A text is not written out longer than it is, and shorter where it holds a percent sign, as only
half of each pair is left; induction on the text.
-/
theorem length_of_expandDirectives {cs written : List Char}
    (expanded : expandDirectives cs = .ok written)
    : written.length ≤ cs.length ∧ ('%' ∈ cs → written.length < cs.length) := by
  fun_induction expandDirectives cs generalizing written with
  | case1 =>
      cases expanded
      simp
  | case2 rest ih =>
      obtain ⟨behind, isBehind, rfl⟩ := except_map_eq_ok_iff.1 expanded
      have noLonger := (ih isBehind).1
      simp only [List.length_cons]
      omega
  | case3 rest notDoubled => cases expanded
  | case4 c rest notDoubled notPercent ih =>
      obtain ⟨behind, isBehind, rfl⟩ := except_map_eq_ok_iff.1 expanded
      obtain ⟨noLonger, shorter⟩ := ih isBehind
      have other : '%' ≠ c := fun same => notPercent same.symm
      simp only [List.length_cons, List.mem_cons, other, false_or]
      exact ⟨by omega, fun held => by have := shorter held; omega⟩

/-- A text is written out as it is exactly when it holds no percent sign. -/
theorem expandDirectives_eq_self_iff {cs : List Char}
    : expandDirectives cs = .ok cs ↔ '%' ∉ cs := by
  constructor
  · intro same held
    exact Nat.lt_irrefl _ ((length_of_expandDirectives same).2 held)
  · exact expandDirectives_of_plain

namespace BindingError

/-- The error says what is wrong with the arguments. The one that does not is that a group has a
name that cannot be written out.
-/
def OfArguments : BindingError → Prop
  | unwritableGroup _ => False
  | _ => True

theorem OfArguments.of_inArgument {e : BindingError} (h : e.InArgument) : e.OfArguments := by
  cases e <;> first | exact trivial | exact h

/-- The error for a missing member names it and the group exactly when the name of the group holds
no percent sign.
-/
theorem ofMissingMember_worded_iff (group member : String)
    : ((ofMissingMember group member).OfArguments
        ∧ (ofMissingMember group member).message
          = "Did not supply a value for " ++ member ++ " in group " ++ group)
      ↔ '%' ∉ group.toList := by
  rw [← expandDirectives_eq_self_iff]
  unfold ofMissingMember
  cases expanded : expandDirectives group.toList with
  | error directive => simp [OfArguments]
  | ok written =>
      have worded : (missingMember member (String.ofList written)).message
            = "Did not supply a value for " ++ member ++ " in group " ++ group
          ↔ written = group.toList := by
        refine (String.append_right_inj _).trans ?_
        rw [← String.toList_inj, String.toList_ofList]
      rw [Except.ok.injEq, ← worded]
      exact and_iff_right trivial

end BindingError

/-- A call that does not ask for the help, on accepted declarations, succeeds or fails by its
arguments, unless a repetition ends without a required member and the name of its group cannot be
written out. Wherever a repetition ends so, the call fails, and it names the first missing member
and the group exactly when the name of the group holds no percent sign.
-/
theorem bind_fails_by_arguments {entries : List Entry} {schema : Schema}
    {arguments : List (Option String)} (replacer : Replacer)
    (accepted : Schema.declare entries = .ok schema) (notUsage : arguments ≠ [some usageRequest])
    : ((∃ bound, (bind entries replacer arguments).result = .ok bound)
        ∨ ∃ cause,
            (bind entries replacer arguments).result = .error (.binding cause)
            ∧ (cause.OfArguments
              ∨ ∃ behind group member directive,
                  schema.EndsWithout (Argument.ofTexts arguments) behind group member
                  ∧ expandDirectives group.name.toList = .error directive
                  ∧ cause = .unwritableGroup directive))
      ∧ ∀ behind group member,
          schema.EndsWithout (Argument.ofTexts arguments) behind group member
          → ∃ cause,
              (bind entries replacer arguments).result = .error (.binding cause)
              ∧ ((cause.OfArguments
                  ∧ cause.message
                    = "Did not supply a value for " ++ member.name ++ " in group " ++ group.name)
                ↔ '%' ∉ group.name.toList) := by
  rw [bind_result_eq replacer accepted notUsage]
  constructor
  · cases run : bindArguments schema (Argument.ofTexts arguments) with
    | ok progress =>
        cases lacking : schema.lacking? progress with
        | none => exact Or.inl ⟨schema.completed replacer progress, by simp only [lacking]⟩
        | some param =>
            exact Or.inr ⟨.missing param.name, by simp only [lacking], Or.inl trivial⟩
    | error halt =>
        refine Or.inr ⟨halt.error, rfl, ?_⟩
        rcases bindArguments_error_cases run with inArgument | ⟨behind, group, member, ends, same⟩
        · exact Or.inl (.of_inArgument inArgument)
        · rw [same, BindingError.ofMissingMember]
          cases expanded : expandDirectives group.name.toList with
          | ok written => exact Or.inl trivial
          | error directive =>
              exact Or.inr ⟨behind, group, member, directive, ends, expanded, rfl⟩
  · intro behind group member ends
    obtain ⟨halt, run, same⟩ := bindArguments_of_endsWithout ends
    refine ⟨halt.error, by rw [run], ?_⟩
    rw [same]
    exact BindingError.ofMissingMember_worded_iff group.name member.name

-----------------------------------------------------------------------------------------
-- A group whose name cannot be written out
-----------------------------------------------------------------------------------------

/-! A quote has asks and gains in per cent, each with the symbol that it is for. -/

namespace Quote

def symbol : Simple :=
  { Trade.account with name := "symbol", name_visible := by decide }

def ask : Simple :=
  { Trade.account with name := "ask", name_visible := by decide }

def gain : Simple :=
  { Trade.account with name := "gain %", name_visible := by decide }

def asks : Group :=
  {
    identity := ask
    members := [symbol]
    identity_required := by decide
    identity_single := by decide
    keys_nodup := by decide
  }

def gains : Group :=
  { asks with identity := gain, keys_nodup := by decide }

def schema : Schema :=
  {
    params := [.repeating asks, .repeating gains]
    keys_nodup := by decide
    required_first := by decide
  }

def entries : List Entry :=
  schema.params.map Entry.declared

theorem declare_entries : Schema.declare entries = .ok schema :=
  Schema.declare_eq_ok_iff.2 rfl

/-- The identity of a group on its own is a repetition without its symbol. -/
theorem endsWithout_symbol {group : Group} {first : Argument} {behind : List Argument}
    (declared : .repeating group ∈ schema.params) (names : first.Names group.key)
    (stops : ∀ next ∈ behind.head?, Block.StopsBefore ⟨.repeating group, first, []⟩ next)
    (ends : Block.EndsWithout ⟨.repeating group, first, []⟩ group symbol)
    : schema.EndsWithout (first :: behind) behind group symbol := by
  have front : schema.PartialCut (first :: behind) [] [] (first :: behind) := by
    refine ⟨rfl, List.nil_prefix, by simp, ?_, by simp, trivial⟩
    intro param isFirst next _ required
    obtain rfl : .repeating asks = param := by simpa [schema] using isFirst
    simp [Param.isRequired] at required
  exact ⟨[], [], ⟨.repeating group, first, []⟩,
    Schema.PartialCut.snoc_iff.2
      ⟨front, ⟨declared, names⟩, ⟨by simp, List.pairwise_singleton _ _⟩, stops⟩,
    ⟨by simp, List.Pairwise.nil, by simp⟩, ends⟩

end Quote

/-- An ask without a symbol is named as it is, also where a gain follows. -/
theorem ask_without_symbol
    : Schema.declare Quote.entries = .ok Quote.schema
      ∧ [some "ask: 1", some "gain %: 2"] ≠ [some usageRequest]
      ∧ Quote.schema.EndsWithout (Argument.ofTexts [some "ask: 1", some "gain %: 2"])
          [Argument.ofText "gain %: 2"] Quote.asks Quote.symbol
      ∧ ∃ cause,
          (bind Quote.entries id [some "ask: 1", some "gain %: 2"]).result
            = .error (.binding cause)
          ∧ cause.OfArguments
          ∧ cause.message = "Did not supply a value for symbol in group ask" := by
  have ends : Quote.schema.EndsWithout (Argument.ofTexts [some "ask: 1", some "gain %: 2"])
      [Argument.ofText "gain %: 2"] Quote.asks Quote.symbol := by
    refine Quote.endsWithout_symbol (by decide) (by decide) ?_ ⟨rfl, ?_, by decide⟩
    · intro next isNext
      obtain rfl : Argument.ofText "gain %: 2" = next := by simpa using isNext
      exact ⟨by decide, by decide⟩
    · unfold Block.Allowed
      decide
  obtain ⟨-, fails⟩ := bind_fails_by_arguments id Quote.declare_entries
    (show [some "ask: 1", some "gain %: 2"] ≠ [some usageRequest] by decide)
  obtain ⟨cause, result, worded⟩ := fails _ _ _ ends
  obtain ⟨ofArguments, message⟩ := worded.2 (by decide)
  exact ⟨Quote.declare_entries, by decide, ends, cause, result, ofArguments, message⟩

/-- A gain without a symbol fails by the name of the group: its percent sign opens a directive that
is not finished.
-/
theorem gain_unwritable
    : Schema.declare Quote.entries = .ok Quote.schema
      ∧ [some "gain %: 2"] ≠ [some usageRequest]
      ∧ Quote.schema.EndsWithout (Argument.ofTexts [some "gain %: 2"]) [] Quote.gains Quote.symbol
      ∧ (bind Quote.entries id [some "gain %: 2"]).result
        = .error (.binding (.unwritableGroup .incomplete))
      ∧ ¬ (BindingError.unwritableGroup .incomplete).OfArguments := by
  have ends : Quote.schema.EndsWithout (Argument.ofTexts [some "gain %: 2"]) [] Quote.gains
      Quote.symbol := by
    refine Quote.endsWithout_symbol (by decide) (by decide) (by simp) ⟨rfl, ?_, by decide⟩
    unfold Block.Allowed
    decide
  exact ⟨Quote.declare_entries, by decide, ends, by decide +kernel, not_false⟩

end ArgBinding
