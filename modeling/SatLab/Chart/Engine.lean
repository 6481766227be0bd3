import SatLab.Chart.Bars
import SatLab.Sheet.Engine

/-!
What charts rest on: an engine that groups, orders, and reshapes the rows of a table of results, and
a canvas that draws and may refuse to.
-/

namespace SatLab

namespace Chart

open Sheet

/-- A row of the result table with the columns that are drawn. -/
structure Result where
  solver : Cell
  folder : Cell
  avgTime : Cell
  minTime : Cell
  maxTime : Cell
  avgMemory : Cell
  minMemory : Cell
  maxMemory : Cell
  decisions : Cell
deriving DecidableEq

/-- The rows of a table of results. Without a column of folders all folders are missing. -/
def resultRows (t : Table) : Except SheetFault (List Result) := do
  let solver ← t.place "solver"
  let folder := (t.place "folder").toOption
  let avgTime ← t.place "avg_time"
  let minTime ← t.place "min_time"
  let maxTime ← t.place "max_time"
  let avgMemory ← t.place "avg_mem"
  let minMemory ← t.place "min_mem"
  let maxMemory ← t.place "max_mem"
  let decisions ← t.place "decisions"
  return t.rows.map fun row =>
    let cell (place : Nat) : Cell := row.cells.getD place .missing
    { solver := cell solver, folder := folder.elim .missing cell, avgTime := cell avgTime,
      minTime := cell minTime, maxTime := cell maxTime, avgMemory := cell avgMemory,
      minMemory := cell minMemory, maxMemory := cell maxMemory, decisions := cell decisions }

/-- Whether some solver has no row for some folder. -/
def hasGap (same : Cell → Cell → Bool) (rows : List Result) : Bool :=
  rows.any fun a => rows.any fun b =>
    rows.all fun row => !(same a.solver row.solver && same b.folder row.folder)

/-- Times of solvers by folders. -/
structure Grid where
  solvers : List Cell
  folders : List Cell
  values : List (List Cell)
deriving DecidableEq

/-- What works on the rows of a table. -/
structure Engine extends Sheet.Engine where
  /-- Whether two cells stand for the same key. -/
  same : Cell → Cell → Bool
  /-- The keys of the groups of rows with these keys. -/
  keys : List Cell → List Cell
  mean : List Cell → Cell
  least : List Cell → Cell
  largest : List Cell → Cell
  /-- The difference of two numbers of a row. -/
  minus : Cell → Cell → Except Fault Cell
  /-- Measures in the order of their averages. -/
  ascending : List Measured → List Measured
  /-- The average times of rows, by solver and folder. -/
  pivot : List Result → Except Fault Grid
  /-- The lines of some solvers. -/
  reindex : Grid → List Cell → Grid

/-- What draws. Each of its operations may be refused. -/
structure Canvas (ε : Type) where
  /-- Draws bars of some heights, each with its label. -/
  bars : List (Cell × Cell) → Except ε Unit
  /-- Draws the ranges of bars. -/
  ranges : List Bar → Except ε Unit
  /-- Gives a chart its texts and writes it to its path. -/
  save : BarChart → Except ε Unit
  /-- Draws a comparison and writes it to its path. -/
  compare : Comparison → Except ε Unit

/-- Why drawing ends early. -/
inductive Stop (ε : Type) where
  | fault (fault : Fault)
  /-- The canvas refuses. -/
  | refusal (reason : ε)

end Chart

end SatLab
