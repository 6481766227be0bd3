/-!
Columns of text: a text is filled up with blanks to a width and never cut.
-/

namespace SatLab

/-- A text at the left of a column. -/
def padRight (width : Nat) (text : String) : String :=
  String.ofList (text.toList.rightpad width ' ')

/-- A text at the right of a column. -/
def padLeft (width : Nat) (text : String) : String :=
  String.ofList (text.toList.leftpad width ' ')

end SatLab
