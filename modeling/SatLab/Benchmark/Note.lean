import SatLab.Benchmark.Trial
import SatLab.Number.Fixed
import SatLab.Text.Layout

/-!
The line of text that tells how an instance went.
-/

namespace SatLab

namespace Benchmark

/-- How an instance went, for its line of text. -/
structure Note where
  status : String
  decisions : Int
  elapsed : Binary64
  memory : Binary64

namespace Note

/-- An instance without a measurement. -/
def blank (status : String) : Note :=
  { status, decisions := 0, elapsed := .zero, memory := .zero }

def ofMeasurement (m : Measurement) (status : String) : Note :=
  { status, decisions := m.count, elapsed := m.elapsed, memory := m.memory.mean }

/-- The line of an instance; the timeouts in a row come last. -/
def line (n : Note) (folder name : String) (consecutive : Except Misuse String) :
    Except Misuse String := do
  let decisions ← (Number.whole n.decisions).shown?
  return padRight 10 folder ++ " " ++ padRight 25 name ++ " " ++ padRight 12 n.status ++
    " Time: " ++ padLeft 9 (n.elapsed.fixed 6) ++ "s Mem(avg): " ++
    padLeft 9 (n.memory.fixed 2) ++ "KB Decisions: " ++ padRight 8 decisions ++
    " (Consecutive TOs: " ++ (← consecutive) ++ ")"

end Note

end Benchmark

end SatLab
