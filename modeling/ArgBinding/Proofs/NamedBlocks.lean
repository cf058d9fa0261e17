import ArgBinding.Proofs.Grammar

/-! Blocks that bind alike wherever they stand. A block of one named argument, or a repetition in
which all arguments are named, is bound to its own parameter whatever named block is behind it, as
long as no member of a group shares a key with a declared parameter. It makes no difference whether
such a block is reached by the walk over the leading parameters or by name, nor whether several
arguments of one parameter are taken together or one by one.
-/

namespace ArgBinding

open ArgBinding.Text

/-- No member of a group, its identity aside, has the key of a declared parameter. -/
def Schema.MembersApart (schema : Schema) : Prop :=
  ∀ group,
    .repeating group ∈ schema.params
    → ∀ member ∈ group.members, ∀ declared ∈ schema.params, member.key ≠ declared.key

theorem Trade.membersApart : Trade.schema.MembersApart := by
  intro group declared
  obtain rfl : group = Trade.fills := by simpa [Trade.schema] using declared
  decide

/-- The block belongs to the schema by the name of its first argument. A plain parameter has one
argument, and a repetition names members, none of a single value twice.
-/
structure Schema.Separate (schema : Schema) (block : Block) : Prop where
  owned : schema.Owns block
  shaped : block.Shaped
  alone : ∀ param, block.param = .simple param → block.following = []

/-- One named argument of a plain parameter is bound on its own when a named argument or none is
behind it. Where that names the same parameter, it goes on with the block, and taking it together
with the first or on its own is the same.
-/
theorem bindNamed_single_eq_ok_iff {schema : Schema} {param : Simple} {first : Argument}
    {behind : List Argument} {progress last : Progress}
    (owned : schema.Owns ⟨.simple param, first, []⟩)
    (named : ∀ next ∈ behind.head?, next.name ≠ none)
    : bindNamed schema progress (first :: behind) = .ok last
      ↔ ∃ reached,
          (Block.mk (.simple param) first []).bindTo progress = .ok reached
          ∧ bindNamed schema reached behind = .ok last := by
  by_cases stops : ∀ next ∈ behind.head?, param.allowMultiple = true → ¬ next.Fits param.key
  · exact bindNamed_of_cut_eq_ok_iff owned ⟨by simp [Block.Shaped], stops⟩
  · simp only [not_forall, not_not] at stops
    obtain ⟨next, isNext, several, fits⟩ := stops
    obtain ⟨rest, rfl⟩ : ∃ rest, behind = next :: rest :=
      ⟨behind.tail, (List.cons_head?_tail isNext).symm⟩
    have split := param.continuation_append_drop rest
    obtain ⟨fitsRest, stops⟩ := Simple.continuation_eq_iff.1 (congrArg param.continuation split)
    have ownedNext : schema.Owns ⟨.simple param, next, param.continuation rest⟩ :=
      ⟨owned.1, fits.resolve_left (named next (by simp))⟩
    have whole := @bindNamed_of_cut_eq_ok_iff schema
      ⟨.simple param, first, next :: param.continuation rest⟩
      (rest.drop (param.continuation rest).length) progress last owned
      ⟨List.forall_mem_cons.2 ⟨⟨several, fits⟩, fitsRest⟩, stops⟩
    have behind (reached : Progress) := @bindNamed_of_cut_eq_ok_iff schema
      ⟨.simple param, next, param.continuation rest⟩
      (rest.drop (param.continuation rest).length) reached last ownedNext ⟨fitsRest, stops⟩
    have together (progress : Progress) := @Block.bindTo_simple_append param first next []
      (param.continuation rest) progress
    simp only [Block.arguments, List.cons_append, split] at whole behind
    simp only [List.nil_append] at together
    simp only [whole, behind, together, except_bind_eq_ok_iff]
    constructor
    · intro h
      rcases h with ⟨reached, ⟨middle, bound, boundNext⟩, run⟩
      exact ⟨middle, bound, reached, boundNext, run⟩
    · intro h
      rcases h with ⟨middle, bound, reached, boundNext, run⟩
      exact ⟨reached, ⟨middle, bound, boundNext⟩, run⟩

namespace Schema.Separate

variable {schema : Schema} {block next : Block}

/-- A repetition ends before a separate block: what names that is no member of the group, and the
identity takes a single value.
-/
theorem stopsBefore (separate : schema.Separate block) (apart : schema.MembersApart) {group : Group}
    (isGroup : block.param = .repeating group) (nextOwned : schema.Owns next)
    : block.StopsBefore next.first := by
  obtain ⟨⟨declared, names⟩, -, -⟩ := separate
  obtain ⟨param, first, following⟩ := block
  cases isGroup
  obtain ⟨nextDeclared, nextNames⟩ := nextOwned
  refine ⟨nextNames.name_ne_none, ?_⟩
  intro member isMember same
  rcases List.mem_cons.1 isMember with rfl | isMember
  · exact ⟨group.identity_single, first, by simp [Block.arguments], names⟩
  · exact absurd (same.unique nextNames) (apart group declared member isMember _ nextDeclared)

end Schema.Separate

-----------------------------------------------------------------------------------------
-- Runs over separate blocks
-----------------------------------------------------------------------------------------

/-- Separate blocks are bound one behind the other, by induction on the blocks. -/
theorem bindNamed_flatMap_eq_ok_iff {schema : Schema} {blocks : List Block}
    {progress last : Progress} (apart : schema.MembersApart)
    (separate : ∀ block ∈ blocks, schema.Separate block)
    : bindNamed schema progress (blocks.flatMap Block.arguments) = .ok last
      ↔ bindBlocks blocks progress = .ok last := by
  induction blocks generalizing progress with
  | nil => simp [bindNamed, bindBlocks, pure, Except.pure]
  | cons block rest ih =>
      obtain ⟨first, separateRest⟩ := List.forall_mem_cons.1 separate
      have head? : ∀ next ∈ (rest.flatMap Block.arguments).head?,
          ∃ block ∈ rest, block.first = next := by
        intro next isNext
        rw [head?_flatMap_arguments] at isNext
        obtain ⟨block, isBlock, same⟩ := Option.map_eq_some_iff.1 isNext
        exact ⟨block, List.mem_of_mem_head? isBlock, same⟩
      rw [bindBlocks_cons_eq_ok_iff]
      simp only [← ih separateRest, List.flatMap_cons]
      cases isGroup : block.param with
      | repeating group =>
          refine bindNamed_of_cut_eq_ok_iff first.owned ⟨first.shaped, ?_⟩
          intro next isNext
          obtain ⟨following, member, rfl⟩ := head? next isNext
          exact first.stopsBefore apart isGroup (separateRest following member).owned
      | simple param =>
          have alone := first.alone param isGroup
          have owned := first.owned
          obtain ⟨_, start, following⟩ := block
          cases isGroup
          cases alone
          refine bindNamed_single_eq_ok_iff owned ?_
          intro next isNext
          obtain ⟨following, member, rfl⟩ := head? next isNext
          exact (separateRest following member).owned.2.name_ne_none

/-- Where all arguments are named, the walk over the leading parameters takes nothing that binding
by name would not take alike; induction on the parameters.
-/
theorem bindLeading_bindNamed_eq_ok_iff {schema : Schema} {params : List Param}
    {arguments : List Argument} {progress last : Progress} (declared : params ⊆ schema.params)
    (named : ∀ argument ∈ arguments, argument.name ≠ none)
    : (∃ bindings rest,
        bindLeading params arguments progress.bindings = .ok (bindings, rest)
        ∧ bindNamed schema { progress with bindings := bindings } rest = .ok last)
      ↔ bindNamed schema progress arguments = .ok last := by
  induction params generalizing arguments progress with
  | nil => simp [bindLeading]
  | cons param params ih =>
      by_cases stops : ∀ next ∈ arguments.head?, param.isRequired = true → ¬ next.Fits param.key
      · simp [bindLeading_of_stops progress.bindings
          (show ∀ first ∈ (param :: params).head?, _ by simpa using stops)]
      · simp only [not_forall, not_not] at stops
        obtain ⟨first, isFirst, required, fits⟩ := stops
        cases param with
        | repeating group => simp [Param.isRequired] at required
        | simple param =>
            obtain ⟨behind, rfl⟩ : ∃ behind, arguments = first :: behind :=
              ⟨arguments.tail, (List.cons_head?_tail isFirst).symm⟩
            have split := param.continuation_append_drop behind
            have owned : schema.Owns ⟨.simple param, first, param.continuation behind⟩ :=
              ⟨declared (by simp), fits.resolve_left (named first (by simp))⟩
            have whole := @bindNamed_of_cut_eq_ok_iff schema
              ⟨.simple param, first, param.continuation behind⟩
              (behind.drop (param.continuation behind).length) progress last owned
              (Simple.continuation_eq_iff.1 (congrArg param.continuation split))
            simp only [Block.arguments, List.cons_append, split] at whole
            have ih (next : Progress) := @ih
              (behind.drop (param.continuation behind).length) next
              (fun other member => declared (List.mem_cons_of_mem _ member))
              (fun argument member =>
                named argument (List.mem_cons_of_mem _ (List.mem_of_mem_drop member)))
            rw [whole]
            simp only [bindLeading_of_fits required fits, except_bind_eq_ok_iff, Block.bindTo,
              Block.assignments, Block.arguments, except_map_eq_ok_iff]
            constructor
            · intro h
              rcases h with ⟨bindings, rest, ⟨reached, bound, walk⟩, run⟩
              exact ⟨_, ⟨reached, bound, rfl⟩,
                (ih { progress with bindings := reached }).1 ⟨bindings, rest, walk, run⟩⟩
            · intro h
              rcases h with ⟨_, ⟨reached, bound, rfl⟩, run⟩
              obtain ⟨bindings, rest, walk, run⟩ :=
                (ih { progress with bindings := reached }).2 run
              exact ⟨bindings, rest, ⟨reached, bound, walk⟩, run⟩

/-- Arguments that are all named can be bound by name from the start. -/
theorem bindArguments_of_named_eq_ok_iff {schema : Schema} {arguments : List Argument}
    {last : Progress} (named : ∀ argument ∈ arguments, argument.name ≠ none)
    : bindArguments schema arguments = .ok last
      ↔ bindNamed schema .start arguments = .ok last := by
  rw [← bindLeading_bindNamed_eq_ok_iff (List.Subset.refl schema.params) named]
  unfold bindArguments
  dsimp only [Progress.start]
  cases bindLeading schema.params arguments [] with
  | error error => simp
  | ok reached =>
      obtain ⟨bindings, rest⟩ := reached
      simp

theorem Schema.Separate.named {schema : Schema} {block : Block} (separate : schema.Separate block)
    : ∀ argument ∈ block.arguments, argument.name ≠ none := by
  obtain ⟨⟨-, names⟩, shaped, alone⟩ := separate
  cases isParam : block.param with
  | repeating group => exact Block.named_of_repeating shaped isParam names
  | simple param =>
      intro argument member
      rw [Block.arguments, alone param isParam, List.mem_singleton] at member
      exact member ▸ names.name_ne_none

/-- Texts that make separate blocks are bound exactly when the schema admits the blocks. -/
theorem bind_separate_eq_ok_iff {entries : List Entry} {schema : Schema} {replacer : Replacer}
    {arguments : List (Option String)} {blocks : List Block} {bound : Bound}
    (accepted : Schema.declare entries = .ok schema) (apart : schema.MembersApart)
    (separate : ∀ block ∈ blocks, schema.Separate block)
    (texts : Argument.ofTexts arguments = blocks.flatMap Block.arguments)
    : (bind entries replacer arguments).result = .ok bound
      ↔ schema.Admits blocks ∧ bound = schema.completed replacer (progressOf blocks) := by
  have named : ∀ argument ∈ blocks.flatMap Block.arguments, argument.name ≠ none := by
    intro argument member
    obtain ⟨block, isBlock, isArgument⟩ := List.mem_flatMap.1 member
    exact (separate block isBlock).named argument isArgument
  have notUsage : arguments ≠ [some usageRequest] := by
    intro same
    subst same
    have positional : Argument.ofText usageRequest ∈ blocks.flatMap Block.arguments := by
      rw [← texts]
      exact List.mem_singleton.2 rfl
    exact named _ positional (by decide)
  have run {last : Progress}
      : bindArguments schema (Argument.ofTexts arguments) = .ok last
        ↔ bindBlocks blocks .start = .ok last := by
    rw [texts, bindArguments_of_named_eq_ok_iff named, bindNamed_flatMap_eq_ok_iff apart separate]
  have declared : ∀ block ∈ blocks, block.param ∈ schema.params :=
    fun block member => (separate block member).owned.1
  rw [← bindBlocks_and_complete_eq_ok_iff declared fun block member =>
    (separate block member).shaped]
  rw [bind_result_eq_ok_iff, and_iff_right notUsage]
  constructor
  · intro h
    rcases h with ⟨declared, last, accepted', bound, done⟩
    obtain rfl := Except.ok.inj (accepted'.symm.trans accepted)
    exact ⟨last, run.1 bound, done⟩
  · intro h
    rcases h with ⟨last, bound, done⟩
    exact ⟨schema, last, accepted, run.2 bound, done⟩

-----------------------------------------------------------------------------------------
-- Texts that name their parameters
-----------------------------------------------------------------------------------------

/-- Texts that bring values to a parameter by its name. A plain parameter has one text. For a group
the first text names the identity, and the others name other members, none of a single value twice.
-/
structure NamedTexts (schema : Schema) where
  param : Param
  first : String
  following : List String
  declared : param ∈ schema.params
  names : (Argument.ofText first).Names param.key
  alone : ∀ plain, param = .simple plain → following = []
  members
    : ∀ group,
        param = .repeating group
        → (∀ text ∈ following,
            ∃ member ∈ group.members, (Argument.ofText text).Names member.key)
          ∧ (following.map Argument.ofText).Pairwise group.Apart

namespace NamedTexts

variable {schema : Schema}

/-- One text that names a plain parameter. -/
def single (param : Simple) (text : String) (declared : .simple param ∈ schema.params)
    (names : (Argument.ofText text).Names param.key)
    : NamedTexts schema :=
  {
    param := .simple param
    first := text
    following := []
    declared := declared
    names := names
    alone := fun _ _ => rfl
    members := nofun
  }

def texts (named : NamedTexts schema) : List String :=
  named.first :: named.following

/-- The block that the texts make. -/
def block (named : NamedTexts schema) : Block :=
  {
    param := named.param
    first := Argument.ofText named.first
    following := named.following.map Argument.ofText
  }

theorem separate (named : NamedTexts schema) : schema.Separate named.block := by
  obtain ⟨param, first, following, declared, names, alone, members⟩ := named
  refine ⟨⟨declared, names⟩, ?_, ?_⟩
  · cases param with
    | simple param =>
        have none : following = [] := alone param rfl
        subst none
        exact List.forall_mem_nil _
    | repeating group =>
        obtain ⟨others, apart⟩ := members group rfl
        have named : ∀ argument ∈ following.map Argument.ofText,
            ∃ member ∈ group.members, argument.Names member.key := by
          intro argument isFollowing
          obtain ⟨text, isText, rfl⟩ := List.mem_map.1 isFollowing
          exact others text isText
        exact ⟨named, List.pairwise_cons.2
          ⟨fun argument member => Group.identity_apart names (named argument member), apart⟩⟩
  · intro plain isPlain
    have none : following = [] := alone plain isPlain
    subst none
    rfl

end NamedTexts

/-- The arguments that hold some blocks one behind the other. -/
def argumentsIn {schema : Schema} (blocks : List (NamedTexts schema)) : List (Option String) :=
  (blocks.flatMap NamedTexts.texts).map some

theorem Argument.ofTexts_map_some (texts : List String)
    : Argument.ofTexts (texts.map some) = texts.map Argument.ofText := by
  rw [ofTexts, List.filterMap_map]
  exact congrFun (List.filterMap_eq_map ▸ rfl) texts

theorem ofTexts_argumentsIn {schema : Schema} (blocks : List (NamedTexts schema))
    : Argument.ofTexts (argumentsIn blocks)
      = (blocks.map NamedTexts.block).flatMap Block.arguments := by
  rw [argumentsIn, Argument.ofTexts_map_some, List.map_flatMap, List.flatMap_map]
  rfl

theorem declared_of_mem_map_block {schema : Schema} {blocks : List (NamedTexts schema)}
    : ∀ block ∈ blocks.map NamedTexts.block, block.param ∈ schema.params := by
  intro block member
  obtain ⟨named, -, rfl⟩ := List.mem_map.1 member
  exact named.declared

theorem bind_argumentsIn_eq_ok_iff {entries : List Entry} {schema : Schema} {replacer : Replacer}
    {blocks : List (NamedTexts schema)} {bound : Bound}
    (accepted : Schema.declare entries = .ok schema) (apart : schema.MembersApart)
    : (bind entries replacer (argumentsIn blocks)).result = .ok bound
      ↔ schema.Admits (blocks.map NamedTexts.block)
        ∧ bound
          = schema.completed replacer (progressOf (blocks.map NamedTexts.block)) := by
  refine bind_separate_eq_ok_iff accepted apart ?_ (ofTexts_argumentsIn blocks)
  intro block member
  obtain ⟨named, -, rfl⟩ := List.mem_map.1 member
  exact named.separate

end ArgBinding
