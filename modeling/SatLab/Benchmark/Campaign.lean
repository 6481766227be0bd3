import SatLab.Benchmark.FolderRun
import SatLab.Benchmark.Instances
import SatLab.Sheet.Writer
import SatLab.Text.UpperCase

/-!
A campaign runs every solver on every folder and writes the result table.

The table starts with the rows that are known from the backup. A folder gets its row when all its
instances are dealt with, and a folder that has been completed is not run again.
-/

namespace SatLab

namespace Benchmark

/-- What a campaign is given. -/
structure Campaign where
  contestants : List Contestant
  paths : List PathName
  /-- How each attempt goes. -/
  trial : Attempt → Trial

/-- The names of the columns of the result table. -/
def tableColumns : List String :=
  ["solver", "folder", "avg_time", "min_time", "max_time", "avg_mem", "min_mem", "max_mem",
    "inconclusive", "failed", "decisions"]

/-- A document as a row of the table; its parts are the cells. -/
def rowText (row : Document) : Except Misuse String :=
  match row.parts? with
  | some cells => Sheet.rowText cells
  | none => .error (.notRow row.kind)

/-- The text of rows, up to the first document that is no row. -/
def rowsText : List Document → Reached Misuse String
  | [] => .done ""
  | row :: rest =>
    match rowText row with
    | .error fault => .stopped "" fault
    | .ok text =>
      let more := rowsText rest
      { more with value := text ++ more.value }

/-- The text of the rows of folders. -/
def foldersText : List (String × FolderRecord) → Reached Misuse String
  | [] => .done ""
  | (_, record) :: rest =>
    match record.rows with
    | .error fault => .stopped "" fault
    | .ok rows =>
      (rowsText rows).bind fun text =>
        let more := foldersText rest
        { more with value := text ++ more.value }

/-- The text of the rows of solvers. -/
def solversText : List (String × SolverRecord) → Reached Misuse String
  | [] => .done ""
  | (_, record) :: rest =>
    match record.entries "values" with
    | .error fault => .stopped "" fault
    | .ok folders =>
      (foldersText folders).bind fun text =>
        let more := solversText rest
        { more with value := text ++ more.value }

/-- The text of all rows that are known. -/
def knownRows (s : Statistics) : Reached Misuse String :=
  match s.entries "values" with
  | .error fault => .stopped "" fault
  | .ok solvers => solversText solvers

/-- Starts the result table with its columns and the rows that are known. -/
def startTable (w : Workbench) (table : String) : Reached Fault Workbench :=
  let known := knownRows w.statistics
  match w.write table (String.ofList (Sheet.rowChars tableColumns) ++ known.value) with
  | .error fault => .stopped w fault
  | .ok w =>
    match known.fault with
    | none => .done w
    | some fault => .stopped w (.misuse fault)

/-- Puts the record of a folder into the statistics. -/
def publish (label folder : String) (s : Statistics) (r : FolderRecord) : Statistics :=
  s.putFolder label folder r

/-- Adds the summary of a folder that has times to the table and to its record. -/
def summarize (w : Workbench) (table label folder : String) (total : Nat)
    (record : FolderRecord) : Reached Fault Workbench :=
  let keep (w : Workbench) (r : FolderRecord) : Workbench :=
    { w with statistics := publish label folder w.statistics r }
  match record.hasTimes with
  | .error fault => .stopped (keep w record) (.misuse fault)
  | .ok false => .done (keep w record)
  | .ok true =>
    match record.summarize label folder total with
    | .error fault => .stopped (keep w record) (.misuse fault)
    | .ok (cells, kept) =>
      match (Sheet.rowText cells).mapError Fault.misuse >>= w.append table with
      | .error fault => .stopped (keep w record) fault
      | .ok w =>
        match kept.fault with
        | none => .done (keep w kept.value)
        | some fault => .stopped (keep w kept.value) (.misuse fault)

namespace Campaign

/-- Closes a folder whose instances are all dealt with. -/
def closeFolder (table label folder : String) (total : Nat) (s : FolderState) :
    Reached Fault Workbench :=
  match s.record.hasCompleted total with
  | .error fault => .stopped s.bench (.misuse fault)
  | .ok false => .done s.bench
  | .ok true =>
    (summarize s.bench table label folder total s.record.setCompleted).bind Workbench.save

/-- Keeps the record of a folder that was run, and closes the folder unless a fault stopped the
run. -/
def endFolder (table label folder : String) (total : Nat) (run : Reached Fault FolderState) :
    Reached Fault Workbench :=
  let bench := { run.value.bench with
    statistics := publish label folder run.value.bench.statistics run.value.record }
  match run.fault with
  | some fault => .stopped bench fault
  | none => closeFolder table label folder total { run.value with bench }

/-- The work of a solver on a folder. -/
def job (c : Campaign) (contestant : Contestant) (folder : String) (members : List PathName) :
    FolderJob :=
  { contestant, folder, instances := members, trial := c.trial,
    publish := publish contestant.label folder }

/-- Runs a solver on a folder that is not completed. -/
def runFolder (c : Campaign) (table : String) (contestant : Contestant) (folder : String)
    (members : List PathName) (record : FolderRecord) (w : Workbench) :
    Reached Fault Workbench :=
  endFolder table contestant.label folder members.length
    ((c.job contestant folder members).run { record, bench := w })

/-- Visits a folder: a new one gets a record, and a completed one is left alone. -/
def visitFolder (c : Campaign) (table : String) (contestant : Contestant) (folder : String)
    (members : List PathName) (w : Workbench) : Reached Fault Workbench :=
  match w.statistics.folder? contestant.label folder with
  | .error fault => .stopped w (.misuse fault)
  | .ok known =>
    let record := known.getD .fresh
    let w := { w with statistics := publish contestant.label folder w.statistics record }
    match record.isCompleted with
    | .error fault => .stopped w (.misuse fault)
    | .ok true =>
      .done (w.printLine (">> Skipping completed: " ++ contestant.label ++ " - " ++ folder))
    | .ok false => c.runFolder table contestant folder members record w

def visitFolders (c : Campaign) (table : String) (contestant : Contestant) (w : Workbench) :
    List (String × List PathName) → Reached Fault Workbench
  | [] => .done w
  | (folder, members) :: rest =>
    (c.visitFolder table contestant folder members w).bind fun w =>
      visitFolders c table contestant w rest

/-- Runs a solver on all folders. -/
def runContestant (c : Campaign) (table : String) (contestant : Contestant) (w : Workbench) :
    Reached Fault Workbench :=
  let w := w.printLine ("\n=== " ++ upperCase contestant.label ++ " ===")
  match w.statistics.withSolver contestant.label with
  | .error fault => .stopped w (.misuse fault)
  | .ok statistics =>
    c.visitFolders table contestant { w with statistics } (groupByFolder c.paths)

def runContestants (c : Campaign) (table : String) (w : Workbench) :
    List Contestant → Reached Fault Workbench
  | [] => .done w
  | contestant :: rest =>
    (c.runContestant table contestant w).bind fun w => runContestants c table w rest

/-- Runs the campaign, going on from the backup if there is one. -/
def run (c : Campaign) (w : Workbench) : Reached Fault Workbench :=
  match w.prepare with
  | .error fault => .stopped w fault
  | .ok w =>
    w.load.bind fun w =>
      let table := w.files.freePath tablePath
      let w := w.printLine (">> Results will be written to: " ++ table)
      (startTable w table).bind fun w => c.runContestants table w c.contestants

end Campaign

end Benchmark

end SatLab
