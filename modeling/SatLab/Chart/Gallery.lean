import SatLab.Chart.Plot
import SatLab.Sheet.Results

/-!
The engine that groups, orders, and reshapes rows, and the charts it gives on a canvas that draws
everything.
-/

namespace SatLab

namespace Chart

open Sheet

/-! ### Groups -/

/-- Keys without repetitions, in the order of their first occurrence. -/
def distinctKeys : List Cell → List Cell
  | [] => []
  | key :: rest => key :: (distinctKeys rest).filter fun other => !key.same other

/-- All keys in order. -/
def sortedKeys (keys : List Cell) : List Cell := (distinctKeys keys).mergeSort Cell.le

/-- A running sum and what rounding has added to it. -/
structure RunningSum where
  sum : Binary64
  excess : Binary64

/-- Adds a number and takes the excess of the rounding before it off again. -/
def RunningSum.add (s : RunningSum) (x : Binary64) : RunningSum :=
  let y := x - s.excess
  let sum := s.sum + y
  let excess := sum - s.sum - y
  { sum, excess := if excess.isUndefined then .zero else excess }

/-- The mean of the measures that are there: their sum, corrected for rounding, by their
count. -/
def groupMean (xs : List Cell) : Cell :=
  match xs.filterMap Cell.real? with
  | [] => .missing
  | known =>
    let total := known.foldl RunningSum.add { sum := .zero, excess := .zero }
    .ofReal (total.sum / .ofInt known.length)

/-- The first of the measures that are there that none of the others is before. -/
def groupExtreme (before : Cell → Cell → Bool) (xs : List Cell) : Cell :=
  match xs.filter (!·.isMissing) with
  | [] => .missing
  | first :: rest => rest.foldl (fun chosen x => if before x chosen then x else chosen) first

/-! ### Bars -/

/-- Whether a height comes before another one or beside it. -/
def heightLe : Cell → Cell → Bool
  | .missing, .missing => true
  | .missing, _ => false
  | _, .missing => true
  | a, b => !b.lt a

/-- Measures in ascending order, missing ones last. -/
def ascending (measures : List Measured) : List Measured :=
  measures.mergeSort fun a b => heightLe a.average b.average

/-- How far one cell is above another one. -/
def distance (high low : Cell) : Except Fault Cell :=
  match high.difference? low with
  | some x => .ok x
  | none => .error .flagDifference

/-! ### The comparison -/

/-- Whether two rows have the same solver and folder. -/
def sameCell (a b : Result) : Bool := a.solver.same b.solver && a.folder.same b.folder

/-- Whether some solver has two rows for one folder. -/
def hasDuplicate : List Result → Bool
  | [] => false
  | row :: rest => rest.any (sameCell row) || hasDuplicate rest

/-- The row of a solver and a folder. -/
def rowOf? (rows : List Result) (solver folder : Cell) : Option Result :=
  rows.find? fun row => solver.same row.solver && folder.same row.folder

/-- The average time of a solver on a folder; it is missing if there is no such row. -/
def timeOf (rows : List Result) (solver folder : Cell) : Cell :=
  ((rowOf? rows solver folder).map Result.avgTime).getD .missing

/-- The times of rows by solver and folder. Beside gaps all are taken in double precision. -/
def pivot (rows : List Result) : Except Fault Grid :=
  if hasDuplicate rows then .error .duplicate
  else
    let solvers := sortedKeys (rows.map Result.solver)
    let folders := sortedKeys (rows.map Result.folder)
    let adjust := if hasGap Cell.same rows then Cell.widened else id
    .ok { solvers, folders,
          values := solvers.map fun solver => folders.map fun folder =>
            adjust (timeOf rows solver folder) }

/-- The line of a solver. -/
def Grid.line? (grid : Grid) (solver : Cell) : Option (List Cell) :=
  ((grid.solvers.zip grid.values).find? fun entry => solver.same entry.1).map Prod.snd

/-- The lines of some solvers, in their order; those that are not there are missing. -/
def reindex (grid : Grid) (solvers : List Cell) : Grid :=
  { grid with
    solvers
    values := solvers.map fun solver =>
      (grid.line? solver).getD (grid.folders.map fun _ => .missing) }

/-- The engine that works on the rows of sheets. -/
def standard : Engine where
  toEngine := Sheet.standard
  same := Cell.same
  keys := fun cells => sortedKeys (cells.filter fun k => !k.isMissing)
  mean := groupMean
  least := groupExtreme Cell.lt
  largest := groupExtreme (flip Cell.lt)
  minus := distance
  ascending := ascending
  pivot := pivot
  reindex := reindex

/-! ### All charts -/

/-- A canvas that refuses nothing. -/
def recorder : Canvas Empty where
  bars := fun _ => .ok ()
  ranges := fun _ => .ok ()
  save := fun _ => .ok ()
  compare := fun _ => .ok ()

/-- The directory the charts are written to unless another one is asked for. -/
def defaultDirectory : String := "results"

/-- The charts of the results in a text. -/
def draw (files : FileTree) (directory text : String) : Except Fault Gallery :=
  (standard.plot recorder files directory text.toList).mapError fun
    | .fault fault => fault

end Chart

end SatLab
