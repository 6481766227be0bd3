import SatLab.Benchmark.Trial
import SatLab.Document.Arithmetic
import SatLab.Number.Fixed

/-!
What is known about one solver on the instances of one folder.

Every instance that has been dealt with is counted once: it has a time, or it is inconclusive, or
it failed. Only instances with a time contribute to memory and to the count of the solver.
-/

namespace SatLab

/-- A row of the result table: the summary of a folder that is complete. -/
structure SummaryRow where
  solver : String
  folder : String
  avgTime : String
  minTime : String
  maxTime : String
  avgMemory : String
  minMemory : String
  maxMemory : String
  inconclusive : Nat
  failed : Nat
  decisions : String
deriving DecidableEq

structure FolderStatistics where
  times : List Binary64
  memories : List Binary64
  memoryLeast : Binary64
  memoryLargest : Binary64
  inconclusive : Nat
  failed : Nat
  completed : Bool
  /-- The number of instances dealt with. -/
  completedTests : Nat
  rows : List SummaryRow
  /-- The number of timeouts since the last instance that was none. -/
  consecutiveTimeouts : Nat
  decisions : Int
deriving DecidableEq

namespace FolderStatistics

/-- Nothing is known yet. -/
def fresh : FolderStatistics :=
  { times := [], memories := [], memoryLeast := .infinite false, memoryLargest := .infinite true,
    inconclusive := 0, failed := 0, completed := false, completedTests := 0, rows := [],
    consecutiveTimeouts := 0, decisions := 0 }

/-- The number of instances with an outcome. -/
def outcomes (s : FolderStatistics) : Nat := s.times.length + s.inconclusive + s.failed

/-- After this many timeouts in a row the rest of a folder is skipped. -/
def timeoutLimit : Nat := 10

/-- An instance was measured. -/
def succeed (s : FolderStatistics) (m : Measurement) : FolderStatistics :=
  { s with
    times := s.times ++ [m.elapsed]
    memories := s.memories ++ [m.memory.mean]
    memoryLeast := s.memoryLeast.smaller m.memory.least
    memoryLargest := s.memoryLargest.larger m.memory.largest
    consecutiveTimeouts := 0
    decisions := s.decisions + m.count }

/-- An instance took too long. -/
def timeOut (s : FolderStatistics) : FolderStatistics :=
  { s with inconclusive := s.inconclusive + 1, consecutiveTimeouts := s.consecutiveTimeouts + 1 }

/-- An instance could not be measured. -/
def fail (s : FolderStatistics) : FolderStatistics :=
  { s with failed := s.failed + 1, consecutiveTimeouts := 0 }

/-- The instances left of a folder are given up. -/
def skip (s : FolderStatistics) (left : Nat) : FolderStatistics :=
  { s with inconclusive := s.inconclusive + left }

@[simp] theorem outcomes_succeed (s : FolderStatistics) (m : Measurement) :
    (s.succeed m).outcomes = s.outcomes + 1 := by
  simp only [outcomes, succeed, List.length_append, List.length_singleton]
  omega

@[simp] theorem outcomes_timeOut (s : FolderStatistics) :
    s.timeOut.outcomes = s.outcomes + 1 := by
  simp only [outcomes, timeOut]
  omega

@[simp] theorem outcomes_fail (s : FolderStatistics) : s.fail.outcomes = s.outcomes + 1 := by
  simp only [outcomes, fail]
  omega

@[simp] theorem outcomes_skip (s : FolderStatistics) (left : Nat) :
    (s.skip left).outcomes = s.outcomes + left := by
  simp only [outcomes, skip]
  omega

/-- The mean of a list that is not empty. -/
def mean (xs : List Binary64) : Except Misuse Binary64 :=
  match Binary64.mean? xs with
  | some x => .ok x
  | none => .error .nothingToAverage

/-- The extreme of a list that is not empty. -/
def extreme (choose : Binary64 → Binary64 → Binary64) : List Binary64 → Except Misuse Binary64
  | [] => .error .nothingToAverage
  | first :: rest => .ok (rest.foldl choose first)

/-- The decisions for each instance. -/
def averageDecisions (decisions : Int) (total : Int) : Except Misuse Binary64 :=
  if 0 < total then (Number.whole decisions).quotient (.whole total) else .ok .zero

/-- The row of a folder in the result table. -/
def summaryRow (s : FolderStatistics) (solver folder : String) (total : Int) :
    Except Misuse SummaryRow := do
  let decisions ← averageDecisions s.decisions total
  let avgTime ← mean s.times
  let minTime ← extreme Binary64.smaller s.times
  let maxTime ← extreme Binary64.larger s.times
  let avgMemory ← mean s.memories
  return { solver, folder, avgTime := avgTime.fixed 6, minTime := minTime.fixed 6,
           maxTime := maxTime.fixed 6, avgMemory := avgMemory.fixed 2,
           minMemory := s.memoryLeast.fixed 2, maxMemory := s.memoryLargest.fixed 2,
           inconclusive := s.inconclusive, failed := s.failed, decisions := decisions.fixed 2 }

end FolderStatistics

end SatLab
