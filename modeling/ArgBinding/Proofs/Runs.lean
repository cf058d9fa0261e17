import ArgBinding.Proofs.BlockBinding

/-! Runs of binding as cuts of the arguments into blocks. The walk over the leading required
parameters takes one block for each parameter that it passes, and binding by name takes blocks until
no argument is left; a run succeeds exactly when there are such blocks and all of them can be bound.
-/

namespace ArgBinding

open ArgBinding.Text

/-- The blocks stand one behind the other in front of some arguments, each of them cut before all
that is behind it.
-/
def Consecutive : List Block → List Argument → Prop
  | [], _ => True
  | block :: rest, behind =>
      block.CutBefore (rest.flatMap Block.arguments ++ behind) ∧ Consecutive rest behind

instance decidableConsecutive
    : (blocks : List Block) → (behind : List Argument) → Decidable (Consecutive blocks behind)
  | [], _ => .isTrue trivial
  | block :: rest, behind =>
      have := decidableConsecutive rest behind
      inferInstanceAs (Decidable (block.CutBefore _ ∧ _))

/-- The progress after some blocks are bound as well, in order. -/
def bindBlocks (blocks : List Block) (progress : Progress) : Except BindingError Progress :=
  blocks.foldlM (fun reached block => block.bindTo reached) progress

/-- Joined blocks are consecutive exactly when both parts are, by induction on the first part. -/
theorem consecutive_append {earlier later : List Block} {behind : List Argument}
    : Consecutive (earlier ++ later) behind
      ↔ Consecutive earlier (later.flatMap Block.arguments ++ behind)
        ∧ Consecutive later behind := by
  induction earlier with
  | nil => simp [Consecutive]
  | cons block rest ih => simp [Consecutive, ih, and_assoc]

/-- Whether blocks are consecutive depends only on the first argument behind them, by induction on
the blocks.
-/
theorem Consecutive.of_head? {blocks : List Block} {behind other : List Argument}
    (h : Consecutive blocks behind) (same : other.head? = behind.head?)
    : Consecutive blocks other := by
  induction blocks with
  | nil => trivial
  | cons block rest ih =>
      obtain ⟨⟨shaped, stops⟩, consecutive⟩ := h
      refine ⟨⟨shaped, ?_⟩, ih consecutive⟩
      rwa [List.head?_append, same, ← List.head?_append]

theorem Consecutive.shaped {blocks : List Block} {behind : List Argument}
    (h : Consecutive blocks behind)
    : ∀ block ∈ blocks, block.Shaped := by
  induction blocks with
  | nil => simp
  | cons block rest ih => exact List.forall_mem_cons.2 ⟨h.1.1, ih h.2⟩

theorem bindBlocks_cons_eq_ok_iff {block : Block} {rest : List Block} {progress last : Progress}
    : bindBlocks (block :: rest) progress = .ok last
      ↔ ∃ next, block.bindTo progress = .ok next ∧ bindBlocks rest next = .ok last := by
  rw [bindBlocks, List.foldlM_cons, except_bind_eq_ok_iff]
  rfl

theorem bindBlocks_append_eq_ok_iff {earlier later : List Block} {progress last : Progress}
    : bindBlocks (earlier ++ later) progress = .ok last
      ↔ ∃ next, bindBlocks earlier progress = .ok next ∧ bindBlocks later next = .ok last := by
  rw [bindBlocks, List.foldlM_append, except_bind_eq_ok_iff]
  rfl

/-- Binding by name binds one block and then the arguments that are left. -/
theorem bindNamed_cons (schema : Schema) (progress : Progress) (first : Argument)
    (rest : List Argument)
    : bindNamed schema progress (first :: rest)
      = match bindBlock schema progress first rest with
        | .error e => .error { error := e, progress := progress }
        | .ok (next, remaining) => bindNamed schema next remaining := by
  rw [bindNamed]
  split <;> simp_all

/-- Binding by name binds a block that is cut from the front and goes on behind it. -/
theorem bindNamed_of_cut {schema : Schema} {block : Block} {behind : List Argument}
    (progress : Progress) (owned : schema.Owns block) (cut : block.CutBefore behind)
    : bindNamed schema progress (block.arguments ++ behind)
      = match block.bindTo progress with
        | .error e => .error { error := e, progress := progress }
        | .ok next => bindNamed schema next behind := by
  rw [Block.arguments, List.cons_append, bindNamed_cons, bindBlock_of_cut progress owned cut]
  cases block.bindTo progress <;> rfl

theorem bindNamed_of_cut_eq_ok_iff {schema : Schema} {block : Block} {behind : List Argument}
    {progress last : Progress} (owned : schema.Owns block) (cut : block.CutBefore behind)
    : bindNamed schema progress (block.arguments ++ behind) = .ok last
      ↔ ∃ next, block.bindTo progress = .ok next ∧ bindNamed schema next behind = .ok last := by
  rw [bindNamed_of_cut progress owned cut]
  cases block.bindTo progress <;> simp

/-- Binding by name binds the blocks in front and goes on with what is behind them, by induction on
the blocks.
-/
theorem bindNamed_of_consecutive {schema : Schema} {blocks : List Block} {behind : List Argument}
    {progress next : Progress} (owned : ∀ block ∈ blocks, schema.Owns block)
    (consecutive : Consecutive blocks behind) (run : bindBlocks blocks progress = .ok next)
    : bindNamed schema progress (blocks.flatMap Block.arguments ++ behind)
      = bindNamed schema next behind := by
  induction blocks generalizing progress with
  | nil =>
      obtain rfl : progress = next := Except.ok.inj run
      rfl
  | cons block rest ih =>
      obtain ⟨reached, bound, run⟩ := bindBlocks_cons_eq_ok_iff.1 run
      obtain ⟨owns, ownedRest⟩ := List.forall_mem_cons.1 owned
      rw [List.flatMap_cons, List.append_assoc,
        bindNamed_of_cut progress owns consecutive.1, bound]
      exact ih ownedRest consecutive.2 run

/-- Binding by name succeeds exactly when the arguments can be cut into blocks that belong to the
schema, and these can be bound; induction on the run.
-/
theorem bindNamed_eq_ok_iff {schema : Schema} {progress last : Progress}
    {arguments : List Argument}
    : bindNamed schema progress arguments = .ok last
      ↔ ∃ blocks : List Block,
          blocks.flatMap Block.arguments = arguments
          ∧ (∀ block ∈ blocks, schema.Owns block)
          ∧ Consecutive blocks []
          ∧ bindBlocks blocks progress = .ok last := by
  constructor
  · intro run
    fun_induction bindNamed schema progress arguments with
    | case1 progress =>
        exact ⟨[], rfl, by simp, trivial, by simpa [bindBlocks, pure, Except.pure] using run⟩
    | case2 progress first rest error failed => cases run
    | case3 progress first rest next remaining bound ih =>
        obtain ⟨blocks, whole, owned, consecutive, run⟩ := ih run
        obtain ⟨block, rfl, rfl, owns, cut, bound⟩ := bindBlock_eq_ok_iff.1 bound
        refine ⟨block :: blocks, ?_, ?_, ⟨?_, consecutive⟩, ?_⟩
        · simp [whole, Block.arguments]
        · simpa using ⟨owns, owned⟩
        · rwa [whole, List.append_nil]
        · exact bindBlocks_cons_eq_ok_iff.2 ⟨next, bound, run⟩
  · intro h
    rcases h with ⟨blocks, rfl, owned, consecutive, run⟩
    have reached := bindNamed_of_consecutive owned consecutive run
    rw [List.append_nil] at reached
    rw [reached, bindNamed]

-----------------------------------------------------------------------------------------
-- The walk over the leading required parameters
-----------------------------------------------------------------------------------------

/-- The walk ends before a parameter that is not required or does not fit the next argument. -/
theorem bindLeading_of_stops {params : List Param} {arguments : List Argument}
    (bindings : List Binding)
    (stops
      : ∀ param ∈ params.head?,
          ∀ next ∈ arguments.head?, param.isRequired = true → ¬ next.Fits param.key)
    : bindLeading params arguments bindings = .ok (bindings, arguments) := by
  cases params with
  | nil => simp [bindLeading]
  | cons param others =>
      cases param with
      | repeating group => simp [bindLeading]
      | simple param =>
          cases arguments with
          | nil => simp [bindLeading]
          | cons next rest =>
              have fails : ¬ (param.isRequired && param.takes next) = true := by
                rw [Bool.and_eq_true, param.takes_iff_fits, not_and]
                exact stops (.simple param) (by simp) next (by simp)
              rw [bindLeading, if_neg fails]

theorem bindLeading_nil (params : List Param) (bound : List Binding)
    : bindLeading params [] bound = .ok (bound, []) :=
  bindLeading_of_stops bound (by simp)

/-- The walk passes a required parameter that fits the next argument, with all arguments that go on
with it.
-/
theorem bindLeading_of_fits {param : Simple} {params : List Param} {first : Argument}
    {rest : List Argument} {bindings : List Binding} (required : param.isRequired = true)
    (fits : first.Fits param.key)
    : bindLeading (.simple param :: params) (first :: rest) bindings
      = (bindAssigned ((first :: param.continuation rest).map (param, ·)) bindings
          >>= bindLeading params (rest.drop (param.continuation rest).length)) := by
  have takes : (param.isRequired && param.takes first) = true := by
    rw [Bool.and_eq_true, param.takes_iff_fits]
    exact ⟨required, fits⟩
  rw [bindLeading, if_pos takes]
  dsimp only
  cases bindAssigned ((first :: param.continuation rest).map (param, ·)) bindings <;> rfl

/-- The walk succeeds exactly when a block can be cut for each parameter up to one that is not
required or does not fit the next argument, and these can be bound. Induction on the parameters in
one direction and on the blocks in the other.
-/
theorem bindLeading_eq_ok_iff {params : List Param} {arguments rest : List Argument}
    (progress : Progress) {bindings : List Binding}
    : bindLeading params arguments progress.bindings = .ok (bindings, rest)
      ↔ ∃ (leading : List Block) (others : List Param),
          leading.map Block.param ++ others = params
          ∧ leading.flatMap Block.arguments ++ rest = arguments
          ∧ (∀ block ∈ leading,
              block.param.isRequired = true ∧ block.first.Fits block.param.key)
          ∧ Consecutive leading rest
          ∧ (∀ param ∈ others.head?,
              ∀ next ∈ rest.head?, param.isRequired = true → ¬ next.Fits param.key)
          ∧ bindBlocks leading progress = .ok { progress with bindings := bindings } := by
  constructor
  · intro walk
    induction params generalizing arguments progress with
    | nil =>
        rw [bindLeading_of_stops _ (by simp)] at walk
        cases walk
        exact ⟨[], [], rfl, rfl, by simp, trivial, by simp, rfl⟩
    | cons param params ih =>
        by_cases stops
          : ∀ next ∈ arguments.head?, param.isRequired = true → ¬ next.Fits param.key
        · rw [bindLeading_of_stops _ (by simpa using stops)] at walk
          cases walk
          exact ⟨[], param :: params, rfl, rfl, by simp, trivial, by simpa using stops, rfl⟩
        · simp only [not_forall, not_not] at stops
          obtain ⟨first, isFirst, required, fits⟩ := stops
          cases param with
          | repeating group => simp [Param.isRequired] at required
          | simple param =>
              obtain ⟨behind, rfl⟩ : ∃ behind, arguments = first :: behind :=
                ⟨arguments.tail, (List.cons_head?_tail isFirst).symm⟩
              rw [bindLeading_of_fits required fits, except_bind_eq_ok_iff] at walk
              obtain ⟨next, bound, walk⟩ := walk
              obtain ⟨leading, others, rfl, whole, met, consecutive, stops, run⟩ :=
                ih { progress with bindings := next } walk
              have split := param.continuation_append_drop behind
              refine ⟨⟨.simple param, first, param.continuation behind⟩ :: leading, others, rfl,
                ?_, ?_, ⟨?_, consecutive⟩, stops, bindBlocks_cons_eq_ok_iff.2 ⟨_, ?_, run⟩⟩
              · simp [Block.arguments, whole, split]
              · simpa using ⟨⟨required, fits⟩, met⟩
              · rw [whole]
                exact Simple.continuation_eq_iff.1 (by rw [split])
              · simp only [Block.bindTo, Block.assignments, Block.arguments, bound, Except.map]
  · intro h
    rcases h with ⟨leading, others, rfl, rfl, met, consecutive, stops, run⟩
    induction leading generalizing progress with
    | nil =>
        simp only [bindBlocks, List.foldlM_nil, pure, Except.pure, Except.ok.injEq] at run
        rw [run]
        exact bindLeading_of_stops bindings stops
    | cons block leading ih =>
        obtain ⟨⟨required, fits⟩, metRest⟩ := List.forall_mem_cons.1 met
        obtain ⟨cut, consecutive⟩ := consecutive
        obtain ⟨next, bound, run⟩ := bindBlocks_cons_eq_ok_iff.1 run
        obtain ⟨param, first, following⟩ := block
        cases param with
        | repeating group => simp [Param.isRequired] at required
        | simple param =>
            have whole : param.continuation
                (following ++ (leading.flatMap Block.arguments ++ rest)) = following :=
              Simple.continuation_eq_iff.2 cut
            simp only [Block.bindTo, except_map_eq_ok_iff] at bound
            obtain ⟨middle, bound, rfl⟩ := bound
            simp only [List.map_cons, List.cons_append, List.flatMap_cons, Block.arguments,
              List.append_assoc]
            rw [bindLeading_of_fits required fits, whole, List.drop_left, except_bind_eq_ok_iff]
            exact ⟨middle, bound, ih _ metRest consecutive run⟩

-----------------------------------------------------------------------------------------
-- Up to some arguments that are left
-----------------------------------------------------------------------------------------

/-- The front of the arguments is cut into blocks for the leading required parameters, in order, and
blocks that start with a name. Where anything is behind the walk over the leading parameters, the
walk has ended.
-/
structure Schema.PartialCut (schema : Schema) (arguments : List Argument)
    (leading named : List Block) (behind : List Argument)
    : Prop where
  whole : (leading ++ named).flatMap Block.arguments ++ behind = arguments
  walked : leading.map Block.param <+: schema.params
  met
    : ∀ block ∈ leading, block.param.isRequired = true ∧ block.first.Fits block.param.key
  left
    : ∀ param ∈ schema.params[leading.length]?,
        ∀ next ∈ (named.flatMap Block.arguments ++ behind).head?,
          param.isRequired = true → ¬ next.Fits param.key
  owned : ∀ block ∈ named, schema.Owns block
  consecutive : Consecutive (leading ++ named) behind

theorem Schema.PartialCut.declared {schema : Schema} {arguments behind : List Argument}
    {leading named : List Block} (cut : schema.PartialCut arguments leading named behind)
    : ∀ block ∈ leading ++ named, block.param ∈ schema.params := by
  intro block member
  rcases List.mem_append.1 member with isLeading | isNamed
  · exact cut.walked.subset (List.mem_map_of_mem isLeading)
  · exact (cut.owned block isNamed).1

/-- Blocks of required parameters complete no repetition, by induction on the blocks. -/
theorem repetitions_of_bindBlocks {blocks : List Block} {progress last : Progress}
    (required : ∀ block ∈ blocks, block.param.isRequired = true)
    (run : bindBlocks blocks progress = .ok last)
    : last.repetitions = progress.repetitions := by
  induction blocks generalizing progress with
  | nil =>
      simp only [bindBlocks, List.foldlM_nil, pure, Except.pure, Except.ok.injEq] at run
      rw [run]
  | cons block rest ih =>
      obtain ⟨next, bound, run⟩ := bindBlocks_cons_eq_ok_iff.1 run
      obtain ⟨isRequired, requiredRest⟩ := List.forall_mem_cons.1 required
      obtain ⟨param, first, following⟩ := block
      cases param with
      | repeating group => simp [Param.isRequired] at isRequired
      | simple param =>
          simp only [Block.bindTo, except_map_eq_ok_iff] at bound
          obtain ⟨bindings, -, rfl⟩ := bound
          exact @ih { progress with bindings := bindings } requiredRest run

theorem head?_flatMap_arguments (blocks : List Block)
    : (blocks.flatMap Block.arguments).head? = blocks.head?.map Block.first := by
  cases blocks <;> simp [Block.arguments]

theorem getElem?_of_walked {leading : List Block} {others params : List Param}
    (walked : leading.map Block.param ++ others = params)
    : params[leading.length]? = others.head? := by
  rw [← walked, List.getElem?_append_right (by simp)]
  simp [List.head?_eq_getElem?]

/-- A run binds the blocks of a cut and goes on by name with the arguments that are left. -/
theorem bindArguments_of_partialCut {schema : Schema} {arguments behind : List Argument}
    {leading named : List Block} {progress : Progress}
    (cut : schema.PartialCut arguments leading named behind)
    (run : bindBlocks (leading ++ named) .start = .ok progress)
    : bindArguments schema arguments = bindNamed schema progress behind := by
  obtain ⟨rfl, ⟨others, walked⟩, met, left, owned, consecutive⟩ := cut
  obtain ⟨before, after⟩ := consecutive_append.1 consecutive
  obtain ⟨next, bound, run⟩ := bindBlocks_append_eq_ok_iff.1 run
  have plain : next = { Progress.start with bindings := next.bindings } := by
    have none := repetitions_of_bindBlocks (fun block member => (met block member).1) bound
    cases next
    cases none
    rfl
  have walk : bindLeading schema.params ((leading ++ named).flatMap Block.arguments ++ behind) []
      = .ok (next.bindings, named.flatMap Block.arguments ++ behind) := by
    refine (bindLeading_eq_ok_iff .start).2
      ⟨leading, others, walked, by simp, met, before, ?_, plain ▸ bound⟩
    rwa [getElem?_of_walked walked] at left
  unfold bindArguments
  simp only [walk]
  rw [← plain]
  exact bindNamed_of_consecutive owned after run

-----------------------------------------------------------------------------------------
-- The whole run
-----------------------------------------------------------------------------------------

/-- The arguments are cut into blocks for the leading required parameters, in order, and blocks that
start with a name. The walk over the leading parameters goes on as long as they are required and fit
the next argument.
-/
structure Schema.Cut (schema : Schema) (arguments : List Argument) (leading named : List Block)
    : Prop where
  whole : (leading ++ named).flatMap Block.arguments = arguments
  walked : leading.map Block.param <+: schema.params
  met
    : ∀ block ∈ leading, block.param.isRequired = true ∧ block.first.Fits block.param.key
  left
    : ∀ param ∈ schema.params[leading.length]?,
        ∀ block ∈ named.head?, param.isRequired = true → ¬ block.first.Fits param.key
  owned : ∀ block ∈ named, schema.Owns block
  consecutive : Consecutive (leading ++ named) []

instance (schema : Schema) (arguments : List Argument) (leading named : List Block)
    : Decidable (schema.Cut arguments leading named) :=
  decidable_of_iff
    ((leading ++ named).flatMap Block.arguments = arguments
      ∧ leading.map Block.param <+: schema.params
      ∧ (∀ block ∈ leading, block.param.isRequired = true ∧ block.first.Fits block.param.key)
      ∧ (∀ param ∈ schema.params[leading.length]?,
          ∀ block ∈ named.head?, param.isRequired = true → ¬ block.first.Fits param.key)
      ∧ (∀ block ∈ named, schema.Owns block)
      ∧ Consecutive (leading ++ named) [])
    ⟨fun ⟨whole, walked, met, left, owned, consecutive⟩ =>
      ⟨whole, walked, met, left, owned, consecutive⟩,
      fun cut => ⟨cut.whole, cut.walked, cut.met, cut.left, cut.owned, cut.consecutive⟩⟩

theorem Schema.Cut.partialCut {schema : Schema} {arguments : List Argument}
    {leading named : List Block} (cut : schema.Cut arguments leading named)
    : schema.PartialCut arguments leading named [] := by
  refine ⟨by simpa using cut.whole, cut.walked, cut.met, ?_, cut.owned, cut.consecutive⟩
  intro param isNext next isFirst
  rw [List.append_nil, head?_flatMap_arguments] at isFirst
  obtain ⟨block, isBlock, rfl⟩ := Option.map_eq_some_iff.1 isFirst
  exact cut.left param isNext block isBlock

theorem Schema.PartialCut.cut {schema : Schema} {arguments : List Argument}
    {leading named : List Block} (cut : schema.PartialCut arguments leading named [])
    : schema.Cut arguments leading named := by
  refine ⟨by simpa using cut.whole, cut.walked, cut.met, ?_, cut.owned, cut.consecutive⟩
  intro param isNext block isFirst
  refine cut.left param isNext block.first ?_
  rw [List.append_nil, head?_flatMap_arguments]
  exact Option.mem_map_of_mem Block.first isFirst

/-- Binding all arguments succeeds exactly when they can be cut into blocks that can be bound, by
joining the cuts of the walk and of binding by name.
-/
theorem bindArguments_eq_ok_iff {schema : Schema} {arguments : List Argument} {last : Progress}
    : bindArguments schema arguments = .ok last
      ↔ ∃ leading named,
          schema.Cut arguments leading named
          ∧ bindBlocks (leading ++ named) .start = .ok last := by
  unfold bindArguments
  constructor
  · intro run
    cases walk : bindLeading schema.params arguments [] with
    | error error => simp [walk] at run
    | ok reached =>
        obtain ⟨bindings, rest⟩ := reached
        simp only [walk] at run
        obtain ⟨leading, others, walked, rfl, met, before, stops, bound⟩ :=
          (bindLeading_eq_ok_iff .start).1 walk
        obtain ⟨named, rfl, owned, after, run⟩ := bindNamed_eq_ok_iff.1 run
        refine ⟨leading, named, ⟨by simp, ⟨others, walked⟩, met, ?_, owned, ?_⟩,
          bindBlocks_append_eq_ok_iff.2 ⟨_, bound, run⟩⟩
        · intro param isNext block isFirst
          rw [getElem?_of_walked walked] at isNext
          refine stops param isNext block.first ?_
          rw [head?_flatMap_arguments]
          exact Option.mem_map_of_mem Block.first isFirst
        · exact consecutive_append.2 ⟨by simpa using before, after⟩
  · intro h
    rcases h with ⟨leading, named, cut, run⟩
    have reached := bindArguments_of_partialCut cut.partialCut run
    rwa [bindNamed] at reached

end ArgBinding
