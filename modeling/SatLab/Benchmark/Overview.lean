import SatLab.Benchmark.Statistics
import SatLab.Text.UpperCase

/-!
The statistics as a text in columns, one block for each solver and one line for each folder.
-/

namespace SatLab

namespace Benchmark

/-- Columns with blanks between them. -/
def columns (cells : List String) : String := " ".intercalate cells

/-- The titles of the columns. -/
def overviewTitles : String :=
  columns
    [padRight 15 "Folder", padLeft 10 "AVG(s)", padLeft 10 "MIN(s)", padLeft 10 "MAX(s)",
      padLeft 10 "AVG(KB)", padLeft 10 "MIN(KB)", padLeft 10 "MAX(KB)", padLeft 4 "INC",
      padLeft 5 "FAIL", padLeft 10 "AVG DEC"]

/-- The widths of the columns of a result row, from its third cell on. -/
def rowWidths : List Nat := [10, 10, 10, 10, 10, 10, 4, 5, 10]

/-- The line of a folder with a result row. -/
def rowLine (folder : String) (row : Document) : Except Misuse String := do
  let cells ← (rowWidths.zipIdx 2).mapM fun (width, place) => do
    (← row.part place).inColumn width
  return columns (padRight 15 folder :: cells)

/-- The line of a folder without a result row. -/
def openLine (folder inconclusive failed decisions : String) : String :=
  columns (padRight 15 folder :: List.replicate 6 (padLeft 10 "-") ++
    [inconclusive, failed, padLeft 10 decisions])

/-- The line of a folder. -/
def folderLine (folder : String) : FolderRecord → Except Misuse String
  | .recorded s =>
    match s.rows with
    | row :: _ => rowLine folder row.toDocument
    | [] => do
      let decisions ← FolderStatistics.averageDecisions s.decisions s.completedTests
      return openLine folder (padLeft 4 (toString s.inconclusive)) (padLeft 5 (toString s.failed))
        (decisions.fixed 2)
  | .foreign d => do
    let kept ← d.fields "get"
    let rows := (kept.lookup "csv_ready_data").getD .null
    if rows.isPresent then rowLine folder (← rows.part 0)
    else
      let tests ← d.field "completed_tests"
      let decisions ←
        if ← tests.above (.whole 0) then (← d.field "decisions").dividedBy tests else .ok .zero
      let inconclusive ← ((kept.lookup "inconclusive").getD (.int 0)).countInColumn 4
      let failed ← ((kept.lookup "failed").getD (.int 0)).countInColumn 5
      return openLine folder inconclusive failed (decisions.fixed 2)

/-- The lines of folders, up to the first one that cannot be shown. -/
def folderLines : List (String × FolderRecord) → Reached Misuse String
  | [] => .done ""
  | (folder, record) :: rest =>
    match folderLine folder record with
    | .error fault => .stopped "" fault
    | .ok line =>
      let more := folderLines rest
      { more with value := line ++ "\n" ++ more.value }

/-- The block of a solver. -/
def solverBlock (label : String) (record : SolverRecord) : Reached Misuse String :=
  let title := "\n--- Summary for " ++ upperCase label ++ " ---\n" ++ overviewTitles ++ "\n"
  match record.entries "items" with
  | .error fault => .stopped title fault
  | .ok folders =>
    let lines := folderLines folders
    { lines with value := title ++ lines.value }

def solverBlocks : List (String × SolverRecord) → Reached Misuse String
  | [] => .done ""
  | (label, record) :: rest =>
    (solverBlock label record).bind fun text =>
      let more := solverBlocks rest
      { more with value := text ++ more.value }

/-- The overview of the statistics, up to the first part that cannot be shown. -/
def overview (s : Statistics) : Reached Misuse String :=
  match s.entries "items" with
  | .error fault => .stopped "" fault
  | .ok solvers => solverBlocks solvers

end Benchmark

end SatLab
