import SatLab.Benchmark.FolderStatistics
import SatLab.Benchmark.Reached
import SatLab.Document.Access

/-!
Statistics of a folder in any shape, as a file may hold them.

They are used like well-formed statistics as far as their fields allow it. A change of several
fields is made field by field, and stops at the first one it cannot be made in.
-/

namespace SatLab

namespace ForeignRecord

/-- A change of one field. -/
abbrev Change := Document → Except Misuse Document

def increase (name : String) (n : Number) : Change := fun d => do
  return d.setField name (← (← d.field name).increased n)

def append (name : String) (item : Document) : Change := fun d => do
  return d.setField name (← (← d.field name).appended item)

def set (name : String) (value : Document) : Change := fun d => .ok (d.setField name value)

def lower (name : String) (x : Binary64) : Change := fun d => do
  return d.setField name (← (← d.field name).smallerOf (.real x))

def raise (name : String) (x : Binary64) : Change := fun d => do
  return d.setField name (← (← d.field name).largerOf (.real x))

def outcomes (d : Document) : Except Misuse Number := do
  let times ← (← d.field "times").length
  let sum ← (← d.field "inconclusive").addedTo (.whole times)
  (← d.field "failed").addedTo sum

def succeed (d : Document) (m : Measurement) : Reached Misuse Document :=
  .steps d
    [increase "decisions" (.whole m.count), append "times" (.real m.elapsed),
      append "mems" (.real m.memory.mean), lower "mem_min" m.memory.least,
      raise "mem_max" m.memory.largest, set "consecutive_timeouts" (.int 0)]

def timeOut (d : Document) : Reached Misuse Document :=
  .steps d [increase "inconclusive" (.whole 1), increase "consecutive_timeouts" (.whole 1)]

def fail (d : Document) : Reached Misuse Document :=
  .steps d [increase "failed" (.whole 1), set "consecutive_timeouts" (.int 0)]

/-- The mean of a field with a set number of places. -/
def meanText (d : Document) (name : String) (places : Nat) : Except Misuse String := do
  let mean ← Number.mean (← Document.numbers (← (← d.field name).parts))
  (Document.number mean).fixed places

/-- The extreme of a field with a set number of places. -/
def extremeText (d : Document) (name : String) (choose : Number → Number → Number)
    (places : Nat) : Except Misuse String := do
  match ← Document.numbers (← (← d.field name).parts) with
  | [] => throw .nothingToAverage
  | first :: rest => (Document.number (rest.foldl choose first)).fixed places

/-- The row of a folder in the result table. -/
def summaryCells (d : Document) (solver folder : String) (total : Int) :
    Except Misuse (List Document) := do
  let decisions ←
    if 0 < total then (← d.field "decisions").dividedBy (.int total) else .ok .zero
  let avgTime ← meanText d "times" 6
  let minTime ← extremeText d "times" Number.smaller 6
  let maxTime ← extremeText d "times" Number.larger 6
  let avgMemory ← meanText d "mems" 2
  let minMemory ← (← d.field "mem_min").fixed 2
  let maxMemory ← (← d.field "mem_max").fixed 2
  let inconclusive ← d.field "inconclusive"
  let failed ← d.field "failed"
  return [.text solver, .text folder, .text avgTime, .text minTime, .text maxTime,
    .text avgMemory, .text minMemory, .text maxMemory, inconclusive, failed,
    .text (decisions.fixed 2)]

end ForeignRecord

end SatLab
