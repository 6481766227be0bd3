import SatLab.Benchmark.FolderDocument
import SatLab.Benchmark.ForeignRecord

/-!
What is kept for a folder: its statistics, or a document of another shape that came from a file.
-/

namespace SatLab

inductive FolderRecord where
  | recorded (statistics : FolderStatistics)
  | foreign (document : Document)

namespace FolderRecord

def fresh : FolderRecord := .recorded .fresh

def toDocument : FolderRecord → Document
  | recorded s => s.toDocument
  | foreign d => d

def ofDocument (d : Document) : FolderRecord :=
  match FolderStatistics.ofDocument? d with
  | some s => recorded s
  | none => foreign d

/-- The number of instances with an outcome. -/
def outcomes : FolderRecord → Except Misuse Number
  | recorded s => .ok (.whole s.outcomes)
  | foreign d => ForeignRecord.outcomes d

/-- The number of instances dealt with, as it is kept. -/
def completedTests : FolderRecord → Except Misuse Document
  | recorded s => .ok (.int s.completedTests)
  | foreign d => d.field "completed_tests"

def setCompletedTests (r : FolderRecord) (n : Int) : FolderRecord :=
  match r with
  | recorded s =>
    if 0 ≤ n then recorded { s with completedTests := n.toNat }
    else foreign (s.toDocument.setField "completed_tests" (.int n))
  | foreign d => foreign (d.setField "completed_tests" (.int n))

/-- Keeps a number of instances that need not be an integer. -/
def setOutcomes (r : FolderRecord) (n : Number) : FolderRecord :=
  match n with
  | .whole n => r.setCompletedTests n
  | .real _ => foreign (r.toDocument.setField "completed_tests" (.number n))

/-- Whether too many timeouts came in a row. -/
def hasTimedOut : FolderRecord → Except Misuse Bool
  | recorded s => .ok (decide (FolderStatistics.timeoutLimit ≤ s.consecutiveTimeouts))
  | foreign d => do
    (← d.field "consecutive_timeouts").atLeast (.whole FolderStatistics.timeoutLimit)

/-- The timeouts in a row, as they are shown. -/
def consecutiveTimeouts : FolderRecord → Except Misuse String
  | recorded s => .ok (toString s.consecutiveTimeouts)
  | foreign d => do (← d.field "consecutive_timeouts").shown

def ofForeign (r : Reached Misuse Document) : Reached Misuse FolderRecord :=
  { value := foreign r.value, fault := r.fault }

def succeed (r : FolderRecord) (m : Measurement) : Reached Misuse FolderRecord :=
  match r with
  | recorded s => .done (recorded (s.succeed m))
  | foreign d => ofForeign (ForeignRecord.succeed d m)

def timeOut : FolderRecord → Reached Misuse FolderRecord
  | recorded s => .done (recorded s.timeOut)
  | foreign d => ofForeign (ForeignRecord.timeOut d)

def fail : FolderRecord → Reached Misuse FolderRecord
  | recorded s => .done (recorded s.fail)
  | foreign d => ofForeign (ForeignRecord.fail d)

/-- Gives up the instances that are left. -/
def skip (r : FolderRecord) (left : Nat) : Except Misuse FolderRecord :=
  match r with
  | recorded s => .ok (recorded (s.skip left))
  | foreign d => return foreign (← ForeignRecord.increase "inconclusive" (.whole left) d)

def isCompleted : FolderRecord → Except Misuse Bool
  | recorded s => .ok s.completed
  | foreign d => return (← d.field "completed").isPresent

/-- Whether as many instances as given are dealt with. -/
def hasCompleted (r : FolderRecord) (total : Nat) : Except Misuse Bool := do
  return (← r.completedTests).isValue (.whole total)

def setCompleted : FolderRecord → FolderRecord
  | recorded s => recorded { s with completed := true }
  | foreign d => foreign (d.setField "completed" (.flag true))

/-- Whether there is a time to summarize. -/
def hasTimes : FolderRecord → Except Misuse Bool
  | recorded s => .ok (!s.times.isEmpty)
  | foreign d => return (← d.field "times").isPresent

/-- The rows kept for the result table; none if the field is missing. -/
def rows : FolderRecord → Except Misuse (List Document)
  | recorded s => .ok (s.rows.map SummaryRow.toDocument)
  | foreign d => do
    let kept ← d.fields "get"
    ((kept.lookup "csv_ready_data").getD (.list [])).parts

/-- The summary row of a folder, and the record with this row kept. The row is made before it
is kept, and keeping it may fail. -/
def summarize (r : FolderRecord) (solver folder : String) (total : Int) :
    Except Misuse (List Document × Reached Misuse FolderRecord) :=
  match r with
  | recorded s => do
    let row ← s.summaryRow solver folder total
    return (row.cells, .done (recorded { s with rows := s.rows ++ [row] }))
  | foreign d => do
    let cells ← ForeignRecord.summaryCells d solver folder total
    return (cells, ofForeign (.steps d [ForeignRecord.append "csv_ready_data" (.list cells)]))

end FolderRecord

end SatLab
