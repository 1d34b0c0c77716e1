/-!
# Padding

Columns of a report are filled with blanks to a least width, measured in characters.
-/

namespace Mazewalk.Text

/-- A text moved to the right end of a column. -/
def padLeft (width : Nat) (text : String) : String :=
  String.ofList (List.replicate (width - text.length) ' ') ++ text

/-- A text at the left end of a column. -/
def padRight (width : Nat) (text : String) : String :=
  text ++ String.ofList (List.replicate (width - text.length) ' ')

end Mazewalk.Text
