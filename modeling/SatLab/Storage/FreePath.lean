import SatLab.Storage.FileTree

/-!
Paths for new result files. A file that is there is never written over: the next one gets a
number.
-/

namespace SatLab

/-- A text with a mark put in front of every `.csv` in it. -/
def markSuffix (mark : List Char) : List Char → List Char
  | '.' :: 'c' :: 's' :: 'v' :: rest => mark ++ '.' :: 'c' :: 's' :: 'v' :: markSuffix mark rest
  | c :: rest => c :: markSuffix mark rest
  | [] => []

/-- The path with a number in parentheses in front of its suffix. -/
def numberedPath (base : String) (n : Nat) : String :=
  String.ofList (markSuffix (" (" ++ toString n ++ ")").toList base.toList)

namespace FileTree

/-- The numbers that are tried: more than there are entries. -/
def pathNumbers (t : FileTree) : List Nat := List.range' 1 (t.size + 1)

/-- A path that is not in use: the base itself, or the one with the smallest number. A base
without suffix has no other path. -/
def freePath (t : FileTree) (base : String) : String :=
  if t.present base then
    match t.pathNumbers.find? fun n => !t.present (numberedPath base n) with
    | some n => numberedPath base n
    | none => base
  else base

end FileTree

end SatLab
