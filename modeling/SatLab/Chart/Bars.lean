import SatLab.Sheet.Table
import SatLab.Storage.FileTree

/-!
What is drawn: bar charts, of which some have a range at every bar, and a comparison of solvers by
folder.
-/

namespace SatLab

namespace Chart

open Sheet

/-- Why no charts are drawn. -/
inductive Fault where
  | sheet (fault : SheetFault)
  | access (fault : AccessFault)
  /-- A range between flags. -/
  | flagDifference
  /-- A solver has two rows for one folder. -/
  | duplicate
deriving DecidableEq

namespace Fault

def message : Fault → String
  | sheet fault => fault.message
  | access fault => fault.message
  | flagDifference =>
    "numpy boolean subtract, the `-` operator, is not supported, use the bitwise_xor, the `^` " ++
      "operator, or the logical_xor function instead."
  | duplicate => "Index contains duplicate entries, cannot reshape"

end Fault

/-- A measure of a solver, and its range if it has one. -/
structure Measured where
  label : Cell
  average : Cell
  least : Cell
  largest : Cell
deriving DecidableEq

/-- A bar and how far its range reaches below and above its height. -/
structure Bar where
  label : Cell
  height : Cell
  below : Cell
  above : Cell
deriving DecidableEq

structure BarChart where
  bars : List Bar
  /-- Whether the ranges are drawn. -/
  ranged : Bool
  color : String
  /-- What the heights are. -/
  quantity : String
  title : String
  path : String
deriving DecidableEq

/-- The average time of every solver on every folder. -/
structure Comparison where
  solvers : List Cell
  folders : List Cell
  values : List (List Cell)
  quantity : String
  title : String
  path : String
deriving DecidableEq

structure Gallery where
  charts : List BarChart
  comparison : Comparison
deriving DecidableEq

namespace Gallery

/-- The paths of all charts in the order in which they are drawn. -/
def paths (g : Gallery) : List String := g.charts.map BarChart.path ++ [g.comparison.path]

end Gallery

end Chart

end SatLab
