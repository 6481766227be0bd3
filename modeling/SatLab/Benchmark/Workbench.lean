import SatLab.Benchmark.Statistics
import SatLab.Dimacs.Reader
import SatLab.Document.Reader
import SatLab.Document.Writer
import SatLab.Storage.FormulaFile
import SatLab.Storage.FreePath

/-!
The bench on which solvers are compared: files, statistics, and the lines printed so far.

The statistics are saved to a backup file after every change, so that a bench that was stopped
can go on from it.
-/

namespace SatLab

namespace Benchmark

/-- Why work on the bench stops. -/
inductive Fault where
  | formula (fault : FormulaFault)
  | access (fault : AccessFault)
  | encoding (fault : Utf8Fault)
  | numeral (fault : NumeralTooLong)
  /-- A list or a record of a backup stands inside too many others. -/
  | nesting (isRecord : Bool)
  | misuse (fault : Misuse)
deriving DecidableEq

namespace Fault

def message : Fault → String
  | formula fault => fault.message
  | access fault => fault.message
  | encoding fault => fault.message
  | numeral fault => fault.message
  | nesting isRecord =>
    "maximum recursion depth exceeded while decoding a JSON " ++
      (if isRecord then "object" else "array") ++ " from a unicode string"
  | misuse fault => fault.message

end Fault

/-- The directory of all results. -/
def resultFolder : String := "results"

def backupPath : String := "results/backup.tmp"

/-- The result table, unless it is there already. -/
def tablePath : String := "results/benchmark.csv"

/-- One attempt of a solver at an instance. -/
structure Attempt where
  solver : String
  folder : String
  /-- The place of the instance in its folder. -/
  place : Nat
  /-- The number of attempts before this one. -/
  number : Nat
deriving DecidableEq

/-- How deeply the backups may be nested that a bench can read. Statistics are never too deep. -/
structure Depth where
  limit : Nat
  enough : 5 ≤ limit

/-- The depth of a bench for which nothing else is said. -/
def Depth.usual : Depth := { limit := Document.nestingLimit, enough := by decide }

structure Workbench where
  depth : Depth
  files : FileTree
  /-- The files as they were before each change, the last ones first. -/
  history : List FileTree
  statistics : Statistics
  printed : String
  /-- The attempts so far, the last one first. -/
  attempts : List Attempt

namespace Workbench

/-- A bench at the start. -/
def ofFiles (files : FileTree) (depth : Depth := .usual) : Workbench :=
  { depth, files, history := [], statistics := .empty, printed := "", attempts := [] }

/-- All file trees there have been, the last one first. -/
def snapshots (w : Workbench) : List FileTree := w.files :: w.history

def printLine (w : Workbench) (line : String) : Workbench :=
  { w with printed := w.printed ++ line ++ "\n" }

/-- Changes the files. -/
def store (w : Workbench) (files : FileTree) : Workbench :=
  { w with files, history := w.files :: w.history }

def write (w : Workbench) (path : String) (text : String) : Except Fault Workbench :=
  match w.files.write path (Utf8.encode text) with
  | .ok files => .ok (w.store files)
  | .error fault => .error (.access fault)

/-- Adds text at the end of a file. -/
def append (w : Workbench) (path : String) (text : String) : Except Fault Workbench :=
  match w.files.read path with
  | .ok content =>
    match w.files.write path (content ++ Utf8.encode text) with
    | .ok files => .ok (w.store files)
    | .error fault => .error (.access fault)
  | .error fault => .error (.access fault)

/-- Makes the directory of the results unless it is there. -/
def prepare (w : Workbench) : Except Fault Workbench :=
  match w.files.makeDirectory resultFolder with
  | .ok files => .ok (w.store files)
  | .error fault => .error (.access fault)

/-- Saves the statistics, if there is a directory to save them in. A number that cannot be written
cuts the backup off. -/
def save (w : Workbench) : Reached Fault Workbench :=
  if w.files.isDirectory resultFolder then
    let d := w.statistics.toDocument
    let part := d.writtenPart? .indented 0
    match w.write backupPath ((part.map String.ofList).getD d.indentedText) with
    | .error fault => .stopped w fault
    | .ok w => if part.isSome then .stopped w (.misuse .tooManyDigits) else .done w
  else .done w

/-- The statistics in a backup; a text that is no document counts for none. -/
def readBackup (depth : Depth) (files : FileTree) : Except Fault (Option Statistics) := do
  let bytes ← (files.read backupPath).mapError .access
  let text ← (Utf8.decode bytes).mapError .encoding
  match Document.parse (String.ofList text) depth.limit with
  | .ok d => return some (.ofDocument d)
  | .error .malformed => return none
  | .error (.tooLong digits) => throw (.numeral { digits })
  | .error (.tooDeep isRecord) => throw (.nesting isRecord)

/-- Takes the statistics from the backup, if there is one. A backup that is no document is
dropped, and the statistics are empty. -/
def load (w : Workbench) : Reached Fault Workbench :=
  if w.files.present backupPath then
    let w := w.printLine ">> Resuming from previous backup..."
    match readBackup w.depth w.files with
    | .ok (some statistics) => .done { w with statistics }
    | .ok none =>
      .done { w.printLine ">> Error loading backup file, starting fresh" with statistics := .empty }
    | .error fault => .stopped w fault
  else .done w

end Workbench

end Benchmark

end SatLab
