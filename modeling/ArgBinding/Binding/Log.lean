import ArgBinding.Param.Group

/-! The log of binding: the number of arguments and parameters, and then one record for each
repetition of a group, numbered within its group.
-/

namespace ArgBinding

/-- A record in the log of binding. -/
inductive Record where
  /-- Binding starts. -/
  | start (arguments params : Nat)
  /-- A repetition of a group is complete. -/
  | repetition (number : Nat) (group : String)
  deriving DecidableEq, Repr

/-- The text of the record. -/
def Record.message : Record → String
  | start arguments params =>
      "Binding " ++ toString arguments ++ " arguments to " ++ toString params ++ " parameters"
  | repetition number group =>
      "Bound repetition " ++ toString number ++ " of group " ++ group

/-- The records of repetitions in the order in which they were completed, given the keys of the
groups that were repeated before.
-/
def repetitionRecords (before : List String) : List Group → List Record
  | [] => []
  | group :: rest =>
      .repetition (before.count group.key + 1) group.name
        :: repetitionRecords (group.key :: before) rest

end ArgBinding
