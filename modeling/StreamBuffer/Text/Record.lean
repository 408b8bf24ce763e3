/-!
# Records as text

A structure shown on one line: its name, then its fields between braces.
-/

namespace StreamBuffer.Text

/-- The name of a structure followed by its fields, each as `name: text`. -/
def record (name : String) (fields : List (String × String)) : String :=
  name ++ " \x7b " ++ ", ".intercalate (fields.map fun field => field.1 ++ ": " ++ field.2) ++
    " \x7d"

/-- Texts between square brackets. -/
def listing (items : List String) : String := "[" ++ ", ".intercalate items ++ "]"

end StreamBuffer.Text
