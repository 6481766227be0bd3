import SatLab.Storage.FileTree
import SatLab.Storage.PathName

/-!
The instances of a benchmark: DIMACS files, grouped by the folder they lie in.
-/

namespace SatLab

namespace Benchmark

/-- The directory the instances are looked for in. -/
def instanceFolder : String := "benchmarks"

/-- Whether a path lies below the directory of the instances and names a DIMACS file. -/
def isInstance (p : PathName) : Bool :=
  p.parts.head? == some instanceFolder && decide (2 ≤ p.parts.length) && p.name.endsWith ".cnf"

/-- All instances, in the order of the parts of their paths. -/
def instances (files : FileTree) : List PathName :=
  ((files.paths.map PathName.ofString).filter isInstance).mergeSort
    fun p q => (compare p.parts q.parts).isLE

/-- Adds a path to the group of its folder; a new folder goes to the end. -/
def addToGroup (groups : List (String × List PathName)) (p : PathName) :
    List (String × List PathName) :=
  match groups with
  | [] => [(p.folder, [p])]
  | (folder, members) :: rest =>
    if folder = p.folder then (folder, members ++ [p]) :: rest
    else (folder, members) :: addToGroup rest p

/-- Paths by the names of their folders. Folders are in the order of their first path, and so
are the paths of a folder. -/
def groupByFolder (paths : List PathName) : List (String × List PathName) :=
  paths.foldl addToGroup []

end Benchmark

end SatLab
