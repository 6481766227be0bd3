import SatLab.Benchmark.Note
import SatLab.Benchmark.Workbench

/-!
Running a solver on the instances of a folder.

A run goes on where the record of the folder ends: the instances with an outcome are not tried
again. After too many timeouts in a row the rest of the folder is skipped. An instance that cannot
be read stops the run.
-/

namespace SatLab

namespace Benchmark

/-- A solver and its name. -/
structure Contestant where
  label : String
  solver : Solver

/-- The solvers that are compared unless others are named. -/
def standardContestants : List Contestant :=
  [{ label := "dpll", solver := .backtracking }, { label := "brute", solver := .truthTable }]

/-- The work on a folder. -/
structure FolderJob where
  contestant : Contestant
  folder : String
  instances : List PathName
  /-- How each attempt goes. -/
  trial : Attempt → Trial
  /-- The statistics that are saved while the folder has a record. -/
  publish : Statistics → FolderRecord → Statistics

/-- Where the work on a folder has come to. -/
structure FolderState where
  record : FolderRecord
  bench : Workbench

/-- Puts the outcome of a trial into the record. A measurement that cannot be recorded counts as
a failure. -/
def takeOutcome (record : FolderRecord) (outcome : Except TrialFault Measurement) :
    Reached Misuse FolderRecord × Note :=
  match outcome with
  | .ok m =>
    let taken := record.succeed m
    match taken.fault with
    | none => (taken, .ofMeasurement m ("SAT? " ++ flagText m.satisfiable))
    | some fault => (taken.value.fail, .ofMeasurement m ("ERROR: " ++ fault.message))
  | .error (.timeout _) => (record.timeOut, .blank "TIMEOUT")
  | .error (.failed reason) => (record.fail, .blank ("ERROR: " ++ reason))

namespace FolderJob

/-- Saves the statistics with the record of the folder. -/
def save (job : FolderJob) (s : FolderState) : Reached Fault FolderState :=
  let bench := { s.bench with statistics := job.publish s.bench.statistics s.record }
  let saved := bench.save
  { value := { s with bench := saved.value }, fault := saved.fault }

/-- Tries an instance. The index counts the instances dealt with before it. -/
def tryInstance (job : FolderJob) (s : FolderState) (index : Int) (place : Nat) (path : PathName) :
    Reached Fault FolderState :=
  match Dimacs.ofFile s.bench.files path.text with
  | .error fault => .stopped s (.formula fault)
  | .ok f =>
    let attempt : Attempt :=
      { solver := job.contestant.label, folder := job.folder, place,
        number := s.bench.attempts.length }
    let outcome := (job.trial attempt).measure job.contestant.solver f Trial.timeLimit
    let bench := { s.bench with attempts := attempt :: s.bench.attempts }
    let (taken, note) := takeOutcome s.record outcome
    match taken.fault with
    | some fault => .stopped { record := taken.value, bench } (.misuse fault)
    | none =>
      let record := taken.value.setCompletedTests (index + 1)
      match note.line job.folder path.name record.consecutiveTimeouts with
      | .error fault => .stopped { record, bench } (.misuse fault)
      | .ok line => job.save { record, bench := bench.printLine line }

/-- Gives up the instances from an index on. -/
def skipFrom (job : FolderJob) (s : FolderState) (index : Int) : Reached Fault FolderState :=
  let total := job.instances.length
  let bench := s.bench.printLine
    (">> " ++ toString FolderStatistics.timeoutLimit ++ "+ consecutive timeouts in " ++
      job.folder ++ ", skipping remaining")
  match s.record.skip (total - index).toNat with
  | .error fault => .stopped { s with bench } (.misuse fault)
  | .ok record => .done { record := record.setCompletedTests total, bench }

/-- Goes through instances in order; each comes with its index and its place. -/
def goThrough (job : FolderJob) (s : FolderState) :
    List (Int × Nat × PathName) → Reached Fault FolderState
  | [] => .done s
  | (index, place, path) :: rest =>
    match s.record.hasTimedOut with
    | .error fault => .stopped s (.misuse fault)
    | .ok true => job.skipFrom s index
    | .ok false =>
      let tried := job.tryInstance s index place path
      match tried.fault with
      | some _ => tried
      | none => goThrough job tried.value rest

/-- The largest distance from the end of a list that can be asked for. -/
def placeLimit : Nat := 9223372036854775808

/-- The instances from an index on. A negative index counts from the end of the list, which is
then gone through once more from its start. -/
def remaining (job : FolderJob) (start : Int) : Except Misuse (List (Int × Nat × PathName)) :=
  let indexed := job.instances.zipIdx.map fun (path, place) => ((place : Int), place, path)
  if 0 ≤ start then .ok (indexed.drop start.toNat)
  else
    let total := job.instances.length
    if placeLimit < start.natAbs then .error .placeTooLarge
    else if total < start.natAbs then .error .outsideList
    else
      .ok ((indexed.drop (total - start.natAbs)).map
        (fun (index, place, path) => (index - total, place, path)) ++ indexed)

/-- Makes the number of instances dealt with agree with the outcomes. -/
def adjust (s : FolderState) (outcomes : Number) : Except Misuse FolderState := do
  let kept ← s.record.completedTests
  if kept.isValue outcomes then return s
  else
    let line := ">> Adjusting start index from " ++ (← kept.shown) ++ " to " ++
      (← outcomes.shown?) ++ " based on actual data"
    return { record := s.record.setOutcomes outcomes, bench := s.bench.printLine line }

/-- Runs the solver on the instances that have no outcome yet. -/
def run (job : FolderJob) (s : FolderState) : Reached Fault FolderState :=
  match s.record.outcomes with
  | .error fault => .stopped s (.misuse fault)
  | .ok outcomes =>
    match adjust s outcomes with
    | .error fault => .stopped s (.misuse fault)
    | .ok s =>
      match outcomes with
      | .real _ => .stopped s (.misuse (.notCounted .real))
      | .whole start =>
        match job.remaining start with
        | .error fault => .stopped s (.misuse fault)
        | .ok instances => job.goThrough s instances

end FolderJob

end Benchmark

end SatLab
