import ArgBinding.Text.Blank

/-! Arguments. An argument is named when it holds an equals sign or a colon: the first of these ends
its name, and what follows is its value. Without one it is positional and all of it is the value.
-/

namespace ArgBinding

open ArgBinding.Text

/-- An argument as it was written, with its name and value. Names and values are trimmed. -/
structure Argument where
  written : String
  name : Option String
  value : String
  deriving DecidableEq, Repr

/-- A character that ends the name of an argument. -/
def isNameEnd (c : Char) : Bool :=
  c == '=' || c == ':'

namespace Argument

/-- Whether the argument has no name. -/
def isPositional (argument : Argument) : Bool :=
  argument.name.isNone

/-- The argument that a text is. -/
def ofText (text : String) : Argument :=
  let cs := text.toList
  match cs.dropWhile (!isNameEnd ·) with
  | [] => { written := text, name := none, value := trim text }
  | _ :: value =>
      {
        written := text
        name := some (String.ofList (trimChars (cs.takeWhile (!isNameEnd ·))))
        value := String.ofList (trimChars value)
      }

/-- The arguments in a list of texts, some of which may be missing. -/
def ofTexts (texts : List (Option String)) : List Argument :=
  texts.filterMap (·.map ofText)

/-- The text of an argument with a name and a value. -/
def render (name value : String) : String :=
  name ++ ": " ++ value

end Argument

end ArgBinding
