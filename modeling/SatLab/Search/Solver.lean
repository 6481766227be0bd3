import SatLab.Search.Backtracking
import SatLab.Search.TruthTable
import SatLab.Text.Quoted

/-!
Solvers as functions from formulas to results, so that they can be chosen, measured and
compared.
-/

namespace SatLab

/-- How a solver failed: the kind of failure and what it says. -/
structure SolverFault where
  kind : String
  text : String
deriving DecidableEq

namespace SolverFault

def message (e : SolverFault) : String := e.kind ++ ": " ++ e.text

/-- A name was looked up that has no value. -/
def ofUnknownName (e : UnknownName) : SolverFault := { kind := "KeyError", text := quoted e.name }

end SolverFault

/-- A solver gives a model, or tells that there is none, and counts its work. -/
abbrev Solver := Formula → Except SolverFault (Option Assignment × Int)

namespace Solver

/-- Backtracking search; it counts decisions. -/
def backtracking : Solver := fun f =>
  let solved := (BacktrackingSolver.ofFormula f).solve
  .ok (solved.model, solved.counters.decisions)

/-- The truth table; it counts the assignments checked. -/
def truthTable : Solver := fun f =>
  match (TruthTableSolver.ofFormula f).solve with
  | .ok (model, solved) => .ok (model, solved.checked)
  | .error e => .error (.ofUnknownName e)

/-- A solver that gives a fixed answer. -/
def answering (model : Option Assignment) (count : Int) : Solver := fun _ => .ok (model, count)

/-- A solver that always fails. -/
def failing (fault : SolverFault) : Solver := fun _ => .error fault

end Solver

end SatLab
