import SatLab.Benchmark.FolderStatistics

/-!
The statistics of a folder as a document, written and read back.
-/

namespace SatLab

namespace SummaryRow

/-- The cells of a row, in the order of the table. -/
def cells (r : SummaryRow) : List Document :=
  [.text r.solver, .text r.folder, .text r.avgTime, .text r.minTime, .text r.maxTime,
    .text r.avgMemory, .text r.minMemory, .text r.maxMemory, .int r.inconclusive, .int r.failed,
    .text r.decisions]

def toDocument (r : SummaryRow) : Document := .list r.cells

/-- A count is an integer that is not negative. -/
def count? : Document → Option Nat
  | .number (.whole (.ofNat n)) => some n
  | _ => none

def ofDocument? : Document → Option SummaryRow
  | .list [.text solver, .text folder, .text avgTime, .text minTime, .text maxTime,
      .text avgMemory, .text minMemory, .text maxMemory, inconclusive, failed,
      .text decisions] => do
    return { solver, folder, avgTime, minTime, maxTime, avgMemory, minMemory, maxMemory,
             inconclusive := ← count? inconclusive, failed := ← count? failed, decisions }
  | _ => none

end SummaryRow

namespace FolderStatistics

def reals (xs : List Binary64) : Document := .list (xs.map .real)

def real? : Document → Option Binary64
  | .number (.real x) => some x
  | _ => none

def reals? : Document → Option (List Binary64)
  | .list items => items.mapM real?
  | _ => none

def rows? : Document → Option (List SummaryRow)
  | .list items => items.mapM SummaryRow.ofDocument?
  | _ => none

/-- The fields under their names. -/
def toDocument (s : FolderStatistics) : Document :=
  .record
    [("times", reals s.times), ("mems", reals s.memories), ("mem_min", .real s.memoryLeast),
      ("mem_max", .real s.memoryLargest), ("inconclusive", .int s.inconclusive),
      ("failed", .int s.failed), ("completed", .flag s.completed),
      ("completed_tests", .int s.completedTests),
      ("csv_ready_data", .list (s.rows.map SummaryRow.toDocument)),
      ("consecutive_timeouts", .int s.consecutiveTimeouts), ("decisions", .int s.decisions)]

/-- The statistics a document holds, if it has just their fields in their order. -/
def ofDocument? : Document → Option FolderStatistics
  | .record
      [("times", times), ("mems", memories), ("mem_min", .number (.real memoryLeast)),
        ("mem_max", .number (.real memoryLargest)), ("inconclusive", inconclusive),
        ("failed", failed), ("completed", .flag completed), ("completed_tests", completedTests),
        ("csv_ready_data", rows), ("consecutive_timeouts", consecutiveTimeouts),
        ("decisions", .number (.whole decisions))] => do
    return { times := ← reals? times, memories := ← reals? memories, memoryLeast, memoryLargest,
             inconclusive := ← SummaryRow.count? inconclusive,
             failed := ← SummaryRow.count? failed, completed,
             completedTests := ← SummaryRow.count? completedTests, rows := ← rows? rows,
             consecutiveTimeouts := ← SummaryRow.count? consecutiveTimeouts, decisions }
  | _ => none

end FolderStatistics

end SatLab
