import SatLab.CommandLine.Run

/-!
The program: its arguments and the file they name go into a run, and the texts and the exit
status come out.
-/

namespace SatLab

namespace CommandLine

/-- The reason why a file could not be read. -/
def accessProblem : IO.Error → AccessProblem
  | .noFileOrDirectory .. => .missing
  | .alreadyExists .. => .present
  | .inappropriateType .. => .notDirectory
  | _ => .isDirectory

/-- The bytes of a file. -/
def readBytes (path : String) : IO (Except AccessFault (List UInt8)) := do
  match ← (IO.FS.readBinFile path).toBaseIO with
  | .ok content => return .ok content.toList
  | .error e => return .error { problem := accessProblem e, path }

/-- The formula of the file the arguments name. Nothing is read if they name none. -/
def readNamedFile (arguments : List String) : IO (Except FormulaFault Formula) := do
  let .ok (.solve options) := Request.ofArguments arguments | return .ok []
  let some name := options.fileName? | return .ok []
  let path := PathName.ofString name
  let bytes ← readBytes path.text
  return bytes.mapError .access >>= Formula.ofFileBytes path

end CommandLine

end SatLab

open SatLab CommandLine in
def main (arguments : List String) : IO UInt32 := do
  let read ← readNamedFile arguments
  match run (fun _ => read) arguments with
  | .ok outcome =>
    (← IO.getStdout).putStr outcome.output
    (← IO.getStderr).putStr outcome.errors
    return outcome.exit.toUInt32
  | .error fault =>
    (← IO.getStderr).putStrLn fault.message
    return 1
