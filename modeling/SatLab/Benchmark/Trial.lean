import SatLab.Document.Shown
import SatLab.Formula.Satisfaction
import SatLab.Number.Mean
import SatLab.Search.Solver

/-!
Trials: one timed run of a solver on a formula.

What the machine contributes to a trial is part of its description: the readings of the clock and
of the memory, and whether the run came to an end in time.
-/

namespace SatLab

/-- The memory of a process in bytes: the part of its own, if it can be told, and all of it. -/
structure MemoryReading where
  own : Option Int
  total : Int
deriving DecidableEq

namespace MemoryReading

/-- The bytes that count. -/
def bytes (r : MemoryReading) : Int := r.own.getD r.total

/-- The memory in units of 1024 bytes, if that is a finite number of double precision. -/
def kilobytes? (r : MemoryReading) : Option Binary64 :=
  let x := Binary64.ofRatio (decide (r.bytes < 0)) r.bytes.natAbs 1024
  if x.isFinite then some x else none

end MemoryReading

/-- The least, the mean and the largest use of memory. -/
structure MemoryUse where
  least : Binary64
  mean : Binary64
  largest : Binary64
deriving DecidableEq

namespace MemoryUse

/-- Before anything is measured. -/
def none : MemoryUse := { least := .zero, mean := .zero, largest := .zero }

/-- The use seen in samples. Without samples it is zero. -/
def ofSamples : List Binary64 → MemoryUse
  | [] => .none
  | first :: rest =>
    { least := rest.foldl Binary64.smaller first,
      mean := (Binary64.mean? (first :: rest)).getD .zero,
      largest := rest.foldl Binary64.larger first }

/-- The first reading is the level at the start, and the samples are what later readings lie
above it. There is no result if a reading is too large. -/
def ofReadings? (readings : List MemoryReading) : Option MemoryUse := do
  match ← readings.mapM MemoryReading.kilobytes? with
  | [] => return .none
  | start :: later => return ofSamples (later.map fun x => Binary64.larger .zero (x - start))

end MemoryUse

/-- How a run of a solver goes, apart from the result. -/
structure Trial where
  /-- The clock before and after the run. -/
  started : Binary64
  ended : Binary64
  memory : List MemoryReading
  /-- Whether there is no result in time. -/
  hangs : Bool
  /-- The solver of this run, if it is not the one asked for. -/
  solver : Option Solver

namespace Trial

/-- A run that takes no time and no memory. -/
def plain : Trial :=
  { started := .zero, ended := .zero, memory := [], hangs := false, solver := none }

end Trial

/-- The result of a trial. -/
structure Measurement where
  satisfiable : Bool
  /-- What the solver counted. -/
  count : Int
  elapsed : Binary64
  memory : MemoryUse
deriving DecidableEq

/-- Why a trial has no result. -/
inductive TrialFault where
  /-- No result came in the given number of seconds. -/
  | timeout (seconds : Number)
  | failed (reason : String)
deriving DecidableEq

namespace TrialFault

def message : TrialFault → String
  | timeout seconds => "no result within " ++ seconds.shown ++ "s"
  | failed reason => reason

end TrialFault

namespace Trial

/-- The seconds a run may take. -/
def timeLimit : Number := .whole 300

/-- A claimed model that does not satisfy the formula. -/
def wrongModel : SolverFault :=
  { kind := "RuntimeError", text := "solver returned a model that does not satisfy the formula" }

/-- A reading of the memory that is too large to be measured. -/
def readingTooLarge : SolverFault :=
  { kind := "OverflowError", text := "integer division result too large for a float" }

/-- Runs a solver on a formula and checks the model it gives. -/
def checkedSolve (solver : Solver) (f : Formula) :
    Except SolverFault (Option Assignment × Int) := do
  let (model, count) ← solver f
  match model with
  | some m => if f.satisfiedBy m then return (model, count) else throw wrongModel
  | none => return (model, count)

/-- The result of a trial. A reading of the memory that is too large outweighs what the solver
does. -/
def measure (t : Trial) (solver : Solver) (f : Formula) (limit : Number) :
    Except TrialFault Measurement :=
  if t.hangs then .error (.timeout limit)
  else
    match MemoryUse.ofReadings? t.memory with
    | none => .error (.failed readingTooLarge.message)
    | some memory =>
      match checkedSolve (t.solver.getD solver) f with
      | .error fault => .error (.failed fault.message)
      | .ok (model, count) =>
        .ok { satisfiable := model.isSome, count, elapsed := t.ended - t.started, memory }

end Trial

end SatLab
