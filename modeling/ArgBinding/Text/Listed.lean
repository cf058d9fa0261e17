/-! Lists of texts as they stand in messages. -/

namespace ArgBinding.Text

/-- Texts in square brackets. -/
def listed (items : List String) : String :=
  "[" ++ String.intercalate ", " items ++ "]"

end ArgBinding.Text
