import SatLab.Chart.Engine

/-!
The charts of a result table, drawn one after the other: three of all solvers, two of every folder,
and the comparison of solvers by folder.
-/

namespace SatLab

namespace Chart

open Sheet

/-- A bar chart that is asked for. -/
structure Plan where
  measures : List Measured
  /-- Whether the ranges are drawn. -/
  ranged : Bool
  color : String
  quantity : String
  title : String
  path : String

/-- The chart that is asked for, with its bars. -/
def Plan.chart (plan : Plan) (bars : List Bar) : BarChart :=
  { bars, ranged := plan.ranged, color := plan.color, quantity := plan.quantity,
    title := plan.title, path := plan.path }

/-- A path in a directory. -/
def pathIn (directory name : String) : String :=
  if directory.isEmpty || directory.endsWith "/" then directory ++ name
  else directory ++ "/" ++ name

namespace Result

def time (r : Result) : Measured :=
  { label := r.solver, average := r.avgTime, least := r.minTime, largest := r.maxTime }

def steps (r : Result) : Measured :=
  { label := r.solver, average := r.decisions, least := .missing, largest := .missing }

end Result

def timeQuantity : String := "Average Time (s)"

def memoryQuantity : String := "Average Memory (KB)"

def stepsQuantity : String := "Average Decisions"

/-- The charts of a folder. -/
def folderPlans (directory : String) (group : Cell × List Result) : List Plan :=
  let folder := group.1.shown
  [{ measures := group.2.map Result.time, ranged := true, color := "mediumseagreen",
     quantity := timeQuantity, title := "Avg Time - Folder: " ++ folder,
     path := pathIn directory ("avg_time_" ++ folder ++ "_log.png") },
   { measures := group.2.map Result.steps, ranged := false, color := "orchid",
     quantity := stepsQuantity, title := "Avg Decisions - Folder: " ++ folder,
     path := pathIn directory ("avg_decisions_" ++ folder ++ "_log.png") }]

/-- The comparison of the solvers of a grid. -/
def comparisonOf (directory : String) (grid : Grid) : Comparison :=
  { solvers := grid.solvers, folders := grid.folders, values := grid.values,
    quantity := "Average Time (s) - Log Scale",
    title := "Solver Performance Comparison by Benchmark Folder",
    path := pathIn directory "solver_comparison_log.png" }

namespace Engine

variable (e : Engine)

/-- The rows with each key. Rows without a key are in no group. -/
def groupsBy (key : Result → Cell) (rows : List Result) : List (Cell × List Result) :=
  (e.keys (rows.map key)).map fun k => (k, rows.filter fun row => e.same k (key row))

/-- The time of a group. -/
def groupTime (group : Cell × List Result) : Measured :=
  { label := group.1, average := e.mean (group.2.map Result.avgTime),
    least := e.least (group.2.map Result.minTime),
    largest := e.largest (group.2.map Result.maxTime) }

/-- The memory of a group. -/
def groupMemory (group : Cell × List Result) : Measured :=
  { label := group.1, average := e.mean (group.2.map Result.avgMemory),
    least := e.least (group.2.map Result.minMemory),
    largest := e.largest (group.2.map Result.maxMemory) }

/-- The decisions of a group. -/
def groupSteps (group : Cell × List Result) : Measured :=
  { label := group.1, average := e.mean (group.2.map Result.decisions), least := .missing,
    largest := .missing }

/-- The charts of all solvers. -/
def solverPlans (directory : String) (groups : List (Cell × List Result)) : List Plan :=
  [{ measures := groups.map e.groupTime, ranged := true, color := "skyblue",
     quantity := timeQuantity, title := "Average Execution Time per Solver",
     path := pathIn directory "avg_time_log.png" },
   { measures := groups.map e.groupMemory, ranged := true, color := "salmon",
     quantity := memoryQuantity, title := "Average Memory Usage per Solver",
     path := pathIn directory "avg_memory_log.png" },
   { measures := groups.map e.groupSteps, ranged := false, color := "lightgreen",
     quantity := stepsQuantity, title := "Average Number of Decisions per Solver",
     path := pathIn directory "avg_decisions_log.png" }]

/-- The bar of a measure. Without a range nothing is known of one. -/
def bar (ranged : Bool) (m : Measured) : Except Fault Bar :=
  if ranged then do
    return { label := m.label, height := m.average, below := ← e.minus m.average m.least,
             above := ← e.minus m.largest m.average }
  else return { label := m.label, height := m.average, below := .missing, above := .missing }

variable {ε : Type} (canvas : Canvas ε)

/-- Draws a chart with the bars of its measures in ascending order. -/
def barWithRange (plan : Plan) : Except (Stop ε) BarChart := do
  let measures := e.ascending plan.measures
  (canvas.bars (measures.map fun m => (m.label, m.average))).mapError .refusal
  let bars ← (measures.mapM (e.bar plan.ranged)).mapError .fault
  if plan.ranged then (canvas.ranges bars).mapError .refusal
  (canvas.save (plan.chart bars)).mapError .refusal
  return plan.chart bars

/-- Draws all charts of rows, if their column of folders has a place. The comparison has the solvers
in the order of their average times. -/
def gallery (directory : String) (rows : List Result) (folderPlace : Except SheetFault Nat) :
    Except (Stop ε) Gallery := do
  let solvers := e.groupsBy Result.solver rows
  let overall ← (e.solverPlans directory solvers).mapM (e.barWithRange canvas)
  let _ ← folderPlace.mapError fun fault => .fault (.sheet fault)
  let byFolder ← ((e.groupsBy Result.folder rows).flatMap (folderPlans directory)).mapM
    (e.barWithRange canvas)
  let grid ← (e.pivot rows).mapError .fault
  let order := (e.ascending (solvers.map e.groupTime)).map Measured.label
  let comparison := comparisonOf directory (e.reindex grid order)
  (canvas.compare comparison).mapError .refusal
  return { charts := overall ++ byFolder, comparison }

/-- Draws the charts of the results in a text. Their directory is made if it is not there. -/
def plot (files : FileTree) (directory : String) (text : List Char) :
    Except (Stop ε) Gallery := do
  let table ← (e.results text).mapError fun fault => .fault (.sheet fault)
  let _ ← (files.makeDirectories directory).mapError fun fault => .fault (.access fault)
  let rows ← (resultRows table).mapError fun fault => .fault (.sheet fault)
  e.gallery canvas directory rows (table.place "folder")

end Engine

end Chart

end SatLab
