import ArgBinding.Proofs.Grammar

/-! One more declaration behind the required ones changes no binding. Its name is new among the
declared parameters, so no argument that was bound before can go to it, not even where a member of
some group has the same name.
-/

namespace ArgBinding

open ArgBinding.Text

/-- The default that stands in for a parameter to which no argument went. -/
def Param.applied : Param → List (String × String)
  | .simple param => param.default?.toList.map (param.name, ·)
  | .repeating _ => []

/-- The wider schema has one more parameter, which is not required and stands behind all that are.
-/
structure Schema.Inserts (schema wider : Schema) (param : Param) (front back : List Param) : Prop
    where
  params : schema.params = front ++ back
  wider_params : wider.params = front ++ param :: back
  optional : param.isRequired = false
  behind : ∀ later ∈ back, later.isRequired = false

namespace Schema.Inserts

variable {schema wider : Schema} {param : Param} {front back : List Param}

theorem subset (inserts : schema.Inserts wider param front back)
    : schema.params ⊆ wider.params := by
  intro declared member
  rw [inserts.params, List.mem_append] at member
  rw [inserts.wider_params, List.mem_append, List.mem_cons]
  exact member.imp_right Or.inr

theorem mem_of_ne (inserts : schema.Inserts wider param front back) {declared : Param}
    (member : declared ∈ wider.params) (other : declared ≠ param)
    : declared ∈ schema.params := by
  rw [inserts.wider_params, List.mem_append, List.mem_cons] at member
  rw [inserts.params, List.mem_append]
  exact member.imp_right fun later => later.resolve_left other

/-- A cut of the arguments by the schema is one by the wider schema: the walk stays in front of the
new parameter, which ends it where the old ones did.
-/
theorem cut (inserts : schema.Inserts wider param front back) {arguments : List Argument}
    {leading named : List Block} (h : schema.Cut arguments leading named)
    : wider.Cut arguments leading named := by
  obtain ⟨others, walked⟩ := h.walked
  have required : ∀ passed ∈ leading.map Block.param, passed.isRequired = true := by
    intro passed member
    obtain ⟨block, isLeading, rfl⟩ := List.mem_map.1 member
    exact (h.met block isLeading).1
  -- All parameters that the walk passes are required, so they stand in the front.
  obtain ⟨rest, inFront, rfl⟩ : ∃ rest, front = leading.map Block.param ++ rest
      ∧ others = rest ++ back := by
    rcases List.append_eq_append_iff.1 (walked.trans inserts.params) with split | split
    · exact split
    · obtain ⟨further, passed, behind⟩ := split
      cases further with
      | nil => exact ⟨[], by simpa using passed.symm, by simpa using behind.symm⟩
      | cons later further =>
          have := required later (by simp [passed])
          simp [inserts.behind later (by simp [behind])] at this
  have widerWalked : leading.map Block.param ++ (rest ++ param :: back) = wider.params := by
    rw [inserts.wider_params, inFront, List.append_assoc]
  refine {
    whole := h.whole
    walked := ⟨_, widerWalked⟩
    met := h.met
    left := ?_
    owned := fun block member =>
      ⟨inserts.subset (h.owned block member).1, (h.owned block member).2⟩
    consecutive := h.consecutive
  }
  intro next isNext block isFirst isRequired
  rw [getElem?_of_walked widerWalked] at isNext
  cases rest with
  | nil =>
      obtain rfl : param = next := by simpa using isNext
      simp [inserts.optional] at isRequired
  | cons later rest =>
      refine h.left next ?_ block isFirst isRequired
      rw [getElem?_of_walked walked]
      simpa using isNext

/-- The wider schema admits what the schema does, as it requires nothing more. -/
theorem admits (inserts : schema.Inserts wider param front back) {blocks : List Block}
    (h : schema.Admits blocks)
    : wider.Admits blocks := by
  refine ⟨h.allowed, h.once, h.filled, ?_⟩
  intro declared member isRequired
  refine h.supplied declared (inserts.mem_of_ne member ?_) isRequired
  intro same
  have : declared.isRequired = false := by
    have optional := inserts.optional
    rwa [← same] at optional
  simp [this] at isRequired

/-- The defaults of the wider schema are those of the schema with that of the new parameter among
them.
-/
theorem applied (inserts : schema.Inserts wider param front back) {blocks : List Block}
    (replacer : Replacer) (unowned : ∀ block ∈ blocks, block.param.key ≠ param.key)
    : ∃ before after,
        (schema.completed replacer (progressOf blocks)).applied = before ++ after
        ∧ (wider.completed replacer (progressOf blocks)).applied
          = before ++ param.applied ++ after := by
  have own : appliedDefaults (simpleParams [param]) (progressOf blocks).bindings
      = param.applied := by
    cases param with
    | repeating group => rfl
    | simple param =>
        have unbound : boundValues param.key (progressOf blocks).bindings = [] := by
          rw [progressOf, boundValues_bindingsOf]
          exact assignedValues_plainAssignments_eq_nil unowned
        simp [simpleParams, appliedDefaults, unbound, Param.applied]
  refine ⟨appliedBindings (progressOf blocks).bindings
      ++ appliedDefaults (simpleParams front) (progressOf blocks).bindings,
    appliedDefaults (simpleParams back) (progressOf blocks).bindings, ?_, ?_⟩
  · simp [Schema.completed, inserts.params, simpleParams, appliedDefaults]
  · have split : simpleParams (front ++ param :: back)
        = simpleParams front ++ simpleParams [param] ++ simpleParams back := by
      rw [← List.singleton_append, simpleParams_append, simpleParams_append, List.append_assoc]
    rw [Schema.completed, inserts.wider_params, split, ← own]
    simp [appliedDefaults]

end Schema.Inserts

/-- A parameter with a new key that is not required can be inserted behind the required ones. -/
theorem Schema.exists_inserts {schema : Schema} {param : Param} {front back : List Param}
    (params : schema.params = front ++ back)
    (fresh : ∀ declared ∈ schema.params, declared.key ≠ param.key)
    (optional : param.isRequired = false) (behind : ∀ later ∈ back, later.isRequired = false)
    : ∃ wider, schema.Inserts wider param front back := by
  have distinct : ((front ++ param :: back).map Param.key).Nodup := by
    rw [List.map_append, List.map_cons, List.nodup_middle, ← List.map_append, ← params]
    refine List.nodup_cons.2 ⟨?_, schema.keys_nodup⟩
    intro member
    obtain ⟨declared, isDeclared, same⟩ := List.mem_map.1 member
    exact fresh declared isDeclared same
  have ordered : (front ++ param :: back).Pairwise fun earlier later =>
      later.isRequired = true → earlier.isRequired = true := by
    have before := schema.required_first
    rw [params] at before
    exact pairwise_required_append (List.pairwise_append.1 before).1
      (List.forall_mem_cons.2 ⟨optional, behind⟩)
  exact ⟨⟨front ++ param :: back, distinct, ordered⟩, params, rfl, optional, behind⟩

/-- Arguments that are bound to some declarations are bound alike when one more is inserted behind
the required ones, under a key that no declared parameter has. The new parameter has its default or
nothing. Witness: a cut by the schema is one by the wider schema, with the same blocks.
-/
theorem bind_inserted {front back : List Entry} {param : Param} {schema : Schema}
    {replacer : Replacer} {arguments : List (Option String)} {bound : Bound}
    (accepted : Schema.declare (front ++ back) = .ok schema)
    (fresh : ∀ declared ∈ schema.params, declared.key ≠ param.key)
    (optional : param.isRequired = false)
    (behind : ∀ later, .declared later ∈ back → later.isRequired = false)
    (isBound : (bind (front ++ back) replacer arguments).result = .ok bound)
    : ∃ wider,
        (bind (front ++ .declared param :: back) replacer arguments).result = .ok wider
        ∧ (∀ other,
            .simple other ∈ schema.params
            → wider.values.at other.key = bound.values.at other.key)
        ∧ (∀ group,
            .repeating group ∈ schema.params
            → wider.repetitionsAt group.key = bound.repetitionsAt group.key)
        ∧ wider.contentsOf param = param.untouched
        ∧ ∃ before after,
            bound.applied = before ++ after
            ∧ wider.applied = before ++ param.applied ++ after := by
  obtain ⟨frontParams, backParams, params, rfl, rfl⟩ :=
    List.map_eq_append_iff.1 (Schema.declare_eq_ok_iff.1 accepted).symm
  have behind : ∀ later ∈ backParams, later.isRequired = false :=
    fun later member => behind later (List.mem_map_of_mem member)
  obtain ⟨wider, inserts⟩ := Schema.exists_inserts params fresh optional behind
  have widerAccepted
      : Schema.declare
          (frontParams.map Entry.declared ++ .declared param :: backParams.map Entry.declared)
        = .ok wider := by
    rw [Schema.declare_eq_ok_iff, inserts.wider_params]
    simp
  obtain ⟨notUsage, leading, named, cut, admitted, rfl⟩ :=
    (bind_result_eq_ok_iff_cut accepted).1 isBound
  have unowned : ∀ block ∈ leading ++ named, block.param.key ≠ param.key :=
    fun block member => fresh block.param (cut.declared block member)
  refine ⟨wider.completed replacer (progressOf (leading ++ named)), ?_, ?_, ?_, ?_,
    inserts.applied replacer unowned⟩
  · exact (bind_result_eq_ok_iff_cut widerAccepted).2
      ⟨notUsage, leading, named, inserts.cut cut, inserts.admits admitted, rfl⟩
  · intro other isDeclared
    rw [Schema.values_at_completed isDeclared,
      Schema.values_at_completed (inserts.subset isDeclared)]
  · intro group isDeclared
    rw [Schema.repetitionsAt_completed isDeclared,
      Schema.repetitionsAt_completed (inserts.subset isDeclared)]
  · have isDeclared : param ∈ wider.params := by simp [inserts.wider_params]
    rw [contentsOf_completed (fun block member => inserts.subset (cut.declared block member))
      isDeclared]
    exact contentsIn_eq_untouched unowned

/-- A trade may also take a price of its own, under the key of a member of its fills: the price in
the fill stays where it is.
-/
theorem trade_with_price_inserted
    : Schema.declare (Trade.entries.take 2 ++ Trade.entries.drop 2) = .ok Trade.schema
      ∧ (∀ declared ∈ Trade.schema.params, declared.key ≠ (Param.simple Trade.price).key)
      ∧ (Param.simple Trade.price).isRequired = false
      ∧ (∀ later, .declared later ∈ Trade.entries.drop 2 → later.isRequired = false)
      ∧ ∃ bound wider,
          (bind (Trade.entries.take 2 ++ Trade.entries.drop 2) id Trade.arguments).result
            = .ok bound
          ∧ (bind (Trade.entries.take 2 ++ .declared (.simple Trade.price) :: Trade.entries.drop 2)
              id Trade.arguments).result = .ok wider
          ∧ wider.contentsOf (.simple Trade.price) = .plain ["0"]
          ∧ wider.repetitionsAt Trade.fills.key = bound.repetitionsAt Trade.fills.key := by
  have accepted : Schema.declare (Trade.entries.take 2 ++ Trade.entries.drop 2)
      = .ok Trade.schema := by
    rw [List.take_append_drop]
    exact Trade.declare_entries
  have fresh : ∀ declared ∈ Trade.schema.params,
      declared.key ≠ (Param.simple Trade.price).key := by
    decide
  have behind : ∀ later, .declared later ∈ Trade.entries.drop 2 → later.isRequired = false := by
    intro later member
    rcases List.mem_cons.1 member with same | member
    · cases same
      rfl
    · cases List.mem_singleton.1 member
      rfl
  have isBound : (bind (Trade.entries.take 2 ++ Trade.entries.drop 2) id
      Trade.arguments).result.toOption.isSome = true := by
    decide +kernel
  obtain ⟨bound, bound_ok⟩ := exists_eq_ok_of_isSome isBound
  obtain ⟨wider, wider_ok, -, groups, own, -⟩ :=
    bind_inserted accepted fresh (by decide) behind bound_ok
  exact ⟨accepted, fresh, by decide, behind, bound, wider, bound_ok, wider_ok, own,
    groups Trade.fills (by decide)⟩

end ArgBinding
