import ArgBinding.Choices

/-! What can be wrong with a declaration, and the advice on declarations that are accepted.
-/

namespace ArgBinding

/-- Why a declaration is rejected. -/
inductive SchemaError where
  /-- A parameter has no name, or one made of blanks. -/
  | blankName
  /-- The separator of a parameter is empty. -/
  | emptySeparator (name : String)
  /-- The choices of a parameter are no collection. -/
  | notIterable (cause : NotIterable)
  /-- The first parameter of a group is not a required one. -/
  | identityNotRequired
  /-- The first parameter of a group takes several values. -/
  | identityMultiple (identity : String)
  /-- A group is a member of a group. -/
  | nestedGroup (member identity : String)
  /-- A member of a group is no parameter; here in its notation. -/
  | unsupportedMember (spelling identity : String)
  /-- A name occurs twice in a group. -/
  | duplicateMember (member identity : String)
  /-- What is declared is no parameter; here in its notation. -/
  | unsupported (spelling : String)
  /-- A required parameter stands behind one that is not. -/
  | requiredAfterOptional
  /-- A name is declared twice. -/
  | duplicate (name : String)
  deriving DecidableEq, Repr

/-- The text of the error. -/
def SchemaError.message : SchemaError → String
  | blankName => "Parameter name must not be empty"
  | emptySeparator name => "The separator of \"" ++ name ++ "\" must not be empty"
  | notIterable cause => "'" ++ cause.typeName ++ "' object is not iterable"
  | identityNotRequired => "The identity of a repeating group must be a required parameter"
  | identityMultiple identity =>
      "The identity of repeating group " ++ identity ++ " must take a single value"
  | nestedGroup member identity =>
      "Repeating groups cannot be nested: '" ++ member ++ "' in group " ++ identity
  | unsupportedMember spelling identity =>
      "Unsupported parameter " ++ spelling ++ " in group " ++ identity
  | duplicateMember member identity =>
      "Duplicate parameter '" ++ member ++ "' in group " ++ identity
  | unsupported spelling => "Unsupported parameter " ++ spelling
  | requiredAfterOptional => "Required parameters must appear before optional parameters"
  | duplicate name => "Duplicate parameter '" ++ name ++ "'"

/-- Advice that a separator has no effect, as the parameter takes a single value. -/
structure Advice where
  name : String
  separator : String
  deriving DecidableEq, Repr

/-- The text of the advice. -/
def Advice.message (advice : Advice) : String :=
  "The separator \"" ++ advice.separator ++ "\" of \"" ++ advice.name
    ++ "\" is ignored as multiple values are not allowed."

/-- The result of a declaration with the advice that was given on the way to it, also where the
declaration is rejected in the end.
-/
structure Advised (α : Type) where
  advice : List Advice
  result : Except SchemaError α

namespace Advised

/-- A declaration that is accepted or rejected without advice. -/
def ofExcept {α : Type} (result : Except SchemaError α) : Advised α :=
  { advice := [], result := result }

/-- A declaration made from the result of an earlier one, with the advice on both. -/
def andThen {α β : Type} (first : Advised α) (next : α → Advised β) : Advised β :=
  match first.result with
  | .error e => { advice := first.advice, result := .error e }
  | .ok value =>
      { advice := first.advice ++ (next value).advice, result := (next value).result }

instance : Monad Advised where
  pure value := ofExcept (.ok value)
  bind := andThen

end Advised

end ArgBinding
