import ArgBinding.Proofs.Completion

/-! Repetitions as results of their own. A repetition answers about the names of its parameters as
plain parameters with the same values do, whatever the values are; only about other names they
differ, as a repetition does not know them and a result has no value for them.
-/

namespace ArgBinding

open ArgBinding.Text

namespace Repetition

/-- The repetition as a result in which the parameters of its group are plain ones. -/
def standalone (repetition : Repetition) : Bound :=
  Bound.ofTables (repetition.group.params.map Param.simple) repetition.values []
    repetition.replacer []

/-- A name means the same parameter in both. -/
theorem find?_standalone (repetition : Repetition) (name : String)
    : repetition.standalone.find? name
      = (repetition.group.find? (some name)).map Param.simple := by
  have distinct
      : ((repetition.group.params.map Param.simple).map Param.key).Nodup := by
    rw [List.map_map]
    exact repetition.group.params_keys_nodup
  calc repetition.standalone.find? name
    _ = (repetition.group.params.map Param.simple).find? fun param => param.key == lower name :=
        find?_key_eq_of_perm (List.reverse_perm _) distinct (lower name)
    _ = (repetition.group.find? (some name)).map Param.simple := List.find?_map

/-- About the name of a parameter both give the reading of its values. -/
theorem read_standalone_of_key {repetition : Repetition} {name : String} {member : Simple}
    (isMember : member ∈ repetition.group.params) (key : lower name = member.key)
    : repetition.standalone.read (some name) = repetition.read (some name) := by
  rw [read_of_key isMember key]
  unfold Bound.read
  rw [Option.bind_some, find?_standalone, Group.find?_of_key isMember key]
  rfl

/-- What is asked about the name of a parameter is answered alike by both: whether it has a value,
which value and which values it has, and what these are converted to.
-/
theorem accesses_as_standalone {repetition : Repetition} {name : String} {member : Simple}
    (isMember : member ∈ repetition.group.params) (key : lower name = member.key)
    : (repetition.read (some name)).hasValue = (repetition.standalone.read (some name)).hasValue
      ∧ (repetition.read (some name)).value = (repetition.standalone.read (some name)).value
      ∧ (repetition.read (some name)).values = (repetition.standalone.read (some name)).values
      ∧ (repetition.read (some name)).truth = (repetition.standalone.read (some name)).truth
      ∧ (repetition.read (some name)).integer = (repetition.standalone.read (some name)).integer
      ∧ (repetition.read (some name)).integer? = (repetition.standalone.read (some name)).integer?
      ∧ (repetition.read (some name)).decimals
        = (repetition.standalone.read (some name)).decimals := by
  rw [read_standalone_of_key isMember key]
  exact ⟨rfl, rfl, rfl, rfl, rfl, rfl, rfl⟩

/-- A name that means nothing has no value in the result, and the repetition does not know it. -/
theorem hasValue_of_unknown {repetition : Repetition} {name : Option String}
    (unknown : repetition.group.find? name = none)
    : (repetition.standalone.read name).hasValue = .ok false
      ∧ (repetition.read name).hasValue = .error (.unknownMember name) := by
  have none : name.bind repetition.standalone.find? = none := by
    cases name with
    | none => rfl
    | some name => rw [Option.bind_some, find?_standalone, unknown, Option.map_none]
  unfold Bound.read read
  rw [none, unknown]
  exact ⟨rfl, rfl⟩

/-- So about such a name they differ. -/
theorem read_standalone_ne {repetition : Repetition} {name : Option String}
    (unknown : repetition.group.find? name = none)
    : repetition.standalone.read name ≠ repetition.read name := by
  obtain ⟨without, unknown⟩ := hasValue_of_unknown unknown
  intro same
  rw [same, unknown] at without
  cases without

theorem contents_standalone (repetition : Repetition)
    : repetition.standalone.contents
      = repetition.contents.map fun (name, values) => (name, .plain values) := by
  have distinct
      : ((repetition.group.params.map Param.simple).map Param.name).Nodup := by
    rw [List.map_map]
    exact repetition.group.names_nodup
  have pairs : repetition.standalone.contents
      = (repetition.group.params.map Param.simple).map fun param =>
          (param.name, repetition.standalone.contentsOf param) :=
    @foldl_put_eq _ _ Param.name _ _ [] distinct
  rw [pairs, contents, List.map_map, List.map_map]
  rfl

/-- A repetition gives every reading that a result with the same values gives about the names of its
parameters, in any case, and about no other names. Both list the same contents.
-/
theorem reads_as_standalone (repetition : Repetition)
    : (∀ name,
        repetition.read name = repetition.standalone.read name
        ↔ ∃ member ∈ repetition.group.params, ∃ text, name = some text ∧ lower text = member.key)
      ∧ repetition.standalone.contents
        = repetition.contents.map fun (name, values) => (name, .plain values) := by
  refine ⟨?_, repetition.contents_standalone⟩
  intro name
  constructor
  · intro same
    cases found : repetition.group.find? name with
    | none => exact absurd same.symm (read_standalone_ne found)
    | some member =>
        cases name with
        | none => cases found
        | some text =>
            obtain ⟨isMember, key⟩ := Group.key_of_find? found
            exact ⟨member, isMember, text, rfl, key.symm⟩
  · rintro ⟨member, isMember, text, rfl, key⟩
    exact (read_standalone_of_key isMember key).symm

end Repetition

/-- A fill of a trade with a price. -/
def Trade.pricedFill : Repetition :=
  { group := fills, values := [("fill", ["1"]), ("price", ["2"])], replacer := id }

/-- The price of a fill is read alike in the fill and in a result with the same values, in any case;
the side of a trade is read in neither, and they tell so in their own ways.
-/
theorem trade_fill_reads_as_standalone
    : Trade.pricedFill.read (some "PRICE") = Trade.pricedFill.standalone.read (some "PRICE")
      ∧ (Trade.pricedFill.standalone.read (some "PRICE")).hasValue = .ok true
      ∧ (Trade.pricedFill.standalone.read (some "PRICE")).integer = .ok 2
      ∧ Trade.pricedFill.read (some "side") ≠ Trade.pricedFill.standalone.read (some "side")
      ∧ Trade.pricedFill.standalone.contents
        = [("fill", .plain ["1"]), ("price", .plain ["2"])] := by
  obtain ⟨readings, contents⟩ := Trade.pricedFill.reads_as_standalone
  have isMember : Trade.price ∈ Trade.pricedFill.group.params := by decide
  have key : lower "PRICE" = Trade.price.key := by decide
  obtain ⟨hasValue, -, -, -, integer, -⟩ := Repetition.accesses_as_standalone isMember key
  refine ⟨(readings _).2 ⟨Trade.price, isMember, "PRICE", rfl, key⟩, ?_, ?_, ?_,
    contents.trans (by decide)⟩
  · rw [← hasValue]
    rfl
  · rw [← integer]
    rfl
  · rw [ne_eq, readings]
    decide

end ArgBinding
