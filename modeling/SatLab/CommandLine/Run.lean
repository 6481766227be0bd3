import SatLab.Braces.Printer
import SatLab.CommandLine.Options
import SatLab.Formula.Satisfaction
import SatLab.Search.Solver
import SatLab.Storage.FormulaFile

/-!
A run of the command line: from the arguments and the files to the exit status and the texts
written.
-/

namespace SatLab

namespace CommandLine

def usage : String :=
  "usage: main.py [-h] [--file FILE] [--solver \x7bbrute,dpll\x7d] [--stats] [--verify]\n" ++
  "               [formula]\n"

def help : String :=
  usage ++
  "\nA DPLL SAT solver\n\npositional arguments:\n" ++
  "  formula               Formula in brace notation, e.g. \"\x7ba,b\x7d,\x7b-a,c\x7d\"\n" ++
  "\noptions:\n" ++
  "  -h, --help            show this help message and exit\n" ++
  "  --file FILE           Path to a DIMACS .cnf file or a brace-notation text\n" ++
  "                        file\n" ++
  "  --solver \x7bbrute,dpll\x7d\n" ++
  "  --stats               Print search counters\n" ++
  "  --verify              Check the model against the input\n"

/-- What a run leaves behind. -/
structure Outcome where
  exit : Nat
  output : String
  errors : String
deriving DecidableEq

namespace Outcome

/-- The formula has a model. -/
def satisfiable : Nat := 10

/-- The formula has no model. -/
def unsatisfiable : Nat := 20

/-- There is no formula to solve. -/
def unreadable : Nat := 1

/-- The arguments cannot be used. -/
def misused : Nat := 2

end Outcome

/-- A run that ends without an exit status. -/
inductive RunFault where
  /-- The name of the file is empty, and there is no formula beside it. -/
  | noFormula
  /-- A lone double dash was written as the solver. -/
  | noSolver
  | unknownName (fault : UnknownName)
deriving DecidableEq

namespace RunFault

def message : RunFault → String
  | noFormula => "expected string or bytes-like object, got 'NoneType'"
  | noSolver => "unhashable type: 'list'"
  | unknownName fault => quoted fault.name

end RunFault

/-- A model and the counters of the search for it, in words. -/
structure Solved where
  model : Option Assignment
  counters : String

namespace SolverName

/-- Runs the solver with this name. -/
def solve (name : SolverName) (f : Formula) : Except UnknownName Solved :=
  match name with
  | dpll =>
    let solved := (BacktrackingSolver.ofFormula f).solve
    .ok { model := solved.model,
          counters := "decisions=" ++ toString solved.counters.decisions ++
            " propagations=" ++ toString solved.counters.propagations ++
            " conflicts=" ++ toString solved.counters.conflicts }
  | brute => do
    let (model, solved) ← (TruthTableSolver.ofFormula f).solve
    return { model, counters := "checked=" ++ toString solved.checked }

end SolverName

namespace Options

/-- The file to read, if one is named. -/
def fileName? (o : Options) : Option String := o.file.filter (· ≠ "")

/-- The formula to solve. Reading is done by the given function. -/
def readFormula (o : Options) (fileFormula : String → Except FormulaFault Formula) :
    Except RunFault (Except FormulaFault Formula) :=
  match o.fileName?, o.formula with
  | some path, _ => .ok (fileFormula path)
  | none, some text => .ok ((Formula.parse text).mapError .syntaxFault)
  | none, none => .error .noFormula

/-- The lines of the result: the model, then what was asked for besides it. -/
def report (o : Options) (f : Formula) (solved : Solved) : List String :=
  [resultText solved.model] ++
    (if o.stats then [solved.counters] else []) ++
    (match solved.model with
      | some model =>
        if o.verify then ["verified: " ++ (if f.satisfiedBy model then "True" else "False")]
        else []
      | none => [])

/-- Solves the formula the options name. -/
def run (o : Options) (fileFormula : String → Except FormulaFault Formula) :
    Except RunFault Outcome := do
  match ← o.readFormula fileFormula with
  | .error fault =>
    return { exit := Outcome.unreadable, output := "",
             errors := "error: " ++ fault.message ++ "\n" }
  | .ok f =>
    let some name := o.solver | throw .noSolver
    let solved ← (name.solve f).mapError .unknownName
    return { exit := if solved.model.isSome then Outcome.satisfiable else Outcome.unsatisfiable,
             output := String.join ((o.report f solved).map (· ++ "\n")), errors := "" }

end Options

/-- Runs the command line on its arguments. -/
def run (fileFormula : String → Except FormulaFault Formula) (arguments : List String) :
    Except RunFault Outcome :=
  match Request.ofArguments arguments with
  | .error fault =>
    .ok { exit := Outcome.misused, output := "",
          errors := usage ++ "main.py: error: " ++ fault.message ++ "\n" }
  | .ok .help => .ok { exit := 0, output := help, errors := "" }
  | .ok (.solve options) => options.run fileFormula

/-- Runs the command line in a tree of files. -/
def runIn (files : FileTree) (arguments : List String) : Except RunFault Outcome :=
  run (Formula.ofFile files) arguments

end CommandLine

end SatLab
