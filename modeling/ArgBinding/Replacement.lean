import ArgBinding.Binding.Bound
import ArgBinding.Text.Pieces

/-! Replacers for values that are read: whole values looked up, texts in them expanded, or values
put between two texts.
-/

namespace ArgBinding

open ArgBinding.Text

namespace Replacer

/-- Looks up the whole value and leaves one that is not listed as it is. -/
def lookup (table : List (String × String)) : Replacer :=
  fun value => (table.lookup value).getD value

/-- Replaces each listed text everywhere in the value, one after the other. -/
def expand (rules : List (String × String)) : Replacer :=
  fun value => rules.foldl (fun text (old, new) => replaceAll old new text) value

/-- Puts the value between two texts. -/
def wrap (before after : String) : Replacer :=
  fun value => before ++ value ++ after

end Replacer

end ArgBinding
