import SatLab.Benchmark.FolderRecord

/-!
The statistics of a benchmark: for every solver, in order, its folders with what is known about
them. What came from a file may have another shape at every level.
-/

namespace SatLab

/-- What is kept for a solver: its folders in order, or a document that is no record. -/
inductive SolverRecord where
  | folders (entries : List (String × FolderRecord))
  | foreign (document : Document)

/-- What is kept for all solvers, in order, or a document that is no record. -/
inductive Statistics where
  | solvers (entries : List (String × SolverRecord))
  | foreign (document : Document)

namespace SolverRecord

def toDocument : SolverRecord → Document
  | folders entries => .record (entries.map fun (name, r) => (name, r.toDocument))
  | foreign d => d

def ofDocument : Document → SolverRecord
  | .record fields => folders (fields.map fun (name, d) => (name, .ofDocument d))
  | d => foreign d

/-- The folders; `view` names what is asked of them. -/
def entries (r : SolverRecord) (view : String) : Except Misuse (List (String × FolderRecord)) :=
  match r with
  | folders entries => .ok entries
  | foreign d => .error (.attributeMissing d.kind view)

end SolverRecord

namespace Statistics

/-- No solver has run. -/
def empty : Statistics := .solvers []

def toDocument : Statistics → Document
  | solvers entries => .record (entries.map fun (name, r) => (name, r.toDocument))
  | foreign d => d

def ofDocument : Document → Statistics
  | .record fields => solvers (fields.map fun (name, d) => (name, .ofDocument d))
  | d => foreign d

/-- The solvers; `view` names what is asked of them. -/
def entries (s : Statistics) (view : String) : Except Misuse (List (String × SolverRecord)) :=
  match s with
  | solvers entries => .ok entries
  | foreign d => .error (.attributeMissing d.kind view)

/-- The statistics with a place for a solver. -/
def withSolver (s : Statistics) (label : String) : Except Misuse Statistics := do
  let known ← s.entries "setdefault"
  match known.lookup label with
  | some _ => return s
  | none => return solvers (known ++ [(label, .folders [])])

/-- The record of a folder, if there is one. -/
def folder? (s : Statistics) (label folder : String) : Except Misuse (Option FolderRecord) := do
  match (← s.entries "setdefault").lookup label with
  | some r => return (← r.entries "setdefault").lookup folder
  | none => return none

/-- The statistics with the record of a folder put in its place. A solver that was no record
becomes one. -/
def putFolder (s : Statistics) (label folder : String) (r : FolderRecord) : Statistics :=
  match s with
  | solvers known =>
    let folders :=
      match known.lookup label with
      | some (.folders folders) => folders
      | _ => []
    solvers (Document.putField known label (.folders (Document.putField folders folder r)))
  | foreign d => foreign d

end Statistics

end SatLab
