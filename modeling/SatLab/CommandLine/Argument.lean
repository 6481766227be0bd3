import SatLab.Text.DecimalDigit
import SatLab.Text.Quoted

/-!
The arguments of the command line by their roles.

Long options may be shortened as long as they stay unambiguous, and may hold their value after an
equals sign. After a double dash no argument is an option. Arguments that look like negative
numbers, and arguments with a space in them, are never options unless they name one.
-/

namespace SatLab

namespace CommandLine

/-- The options by their full names. -/
inductive Opt where
  | help
  | file
  | solver
  | stats
  | verify
deriving DecidableEq

namespace Opt

/-- The long spelling. -/
def long : Opt → String
  | help => "--help"
  | file => "--file"
  | solver => "--solver"
  | stats => "--stats"
  | verify => "--verify"

/-- The spellings as messages show them. -/
def title : Opt → String
  | help => "-h/--help"
  | o => o.long

def takesValue : Opt → Bool
  | file | solver => true
  | _ => false

def all : List Opt := [help, file, solver, stats, verify]

/-- The option with exactly this spelling. -/
def named? (spelling : String) : Option Opt :=
  if spelling = "-h" then some help else all.find? (·.long = spelling)

end Opt

/-- The solvers to choose from. -/
inductive SolverName where
  | brute
  | dpll
deriving DecidableEq

namespace SolverName

def text : SolverName → String
  | brute => "brute"
  | dpll => "dpll"

def named? (text : String) : Option SolverName := [brute, dpll].find? (·.text = text)

end SolverName

/-- Why the arguments cannot be used. -/
inductive UsageFault where
  | ambiguous (argument : String) (candidates : List Opt)
  | valueNotTaken (option : Opt) (value : String)
  | valueMissing (option : Opt)
  | unknownSolver (value : String)
  | formulaBesideFile
  | fileBesideFormula
  | nothingToSolve
  | unrecognized (arguments : List String)
deriving DecidableEq

namespace UsageFault

def message : UsageFault → String
  | ambiguous argument candidates =>
    "ambiguous option: " ++ argument ++ " could match " ++
      ", ".intercalate (candidates.map Opt.long)
  | valueNotTaken option value =>
    "argument " ++ option.title ++ ": ignored explicit argument " ++ quoted value
  | valueMissing option => "argument " ++ option.title ++ ": expected one argument"
  | unknownSolver value =>
    "argument --solver: invalid choice: " ++ quoted value ++ " (choose from 'brute', 'dpll')"
  | formulaBesideFile => "argument formula: not allowed with argument --file"
  | fileBesideFormula => "argument --file: not allowed with argument formula"
  | nothingToSolve => "one of the arguments formula --file is required"
  | unrecognized arguments => "unrecognized arguments: " ++ " ".intercalate arguments

end UsageFault

/-- An argument by its role. -/
inductive Argument where
  | plain (text : String)
  /-- The first double dash. -/
  | terminator
  /-- An option, with the value written into the same argument if there is one. -/
  | option (option : Opt) (value : Option String)
  /-- The letter `-h` with more letters after it. -/
  | helpLetters (more : String)
  /-- An argument that looks like an option but names none. -/
  | unknown (text : String)
deriving DecidableEq

namespace Argument

/-- A negative number: a minus sign, digits, and perhaps a point with digits after it. A line
feed at the very end does not matter. -/
def isNegativeNumber (text : List Char) : Bool :=
  let text := if text.getLast? = some '\n' then text.dropLast else text
  match text with
  | '-' :: rest =>
    let fraction := rest.dropWhile isDecimalDigit
    (!rest.isEmpty && fraction.isEmpty) ||
      (fraction.head? == some '.' && !(fraction.drop 1).isEmpty &&
        (fraction.drop 1).all isDecimalDigit)
  | _ => false

/-- A text before and after its first equals sign. -/
def splitValue (text : String) : String × Option String :=
  let chars := text.toList
  let value := chars.dropWhile (· != '=')
  (String.ofList (chars.takeWhile (· != '=')),
    if value.isEmpty then none else some (String.ofList (value.drop 1)))

/-- The role of an argument before the double dash. -/
def classify (text : String) : Except UsageFault Argument :=
  match text.toList with
  | '-' :: second :: more =>
    match Opt.named? text with
    | some opt => .ok (.option opt none)
    | none =>
      let (spelling, value) := splitValue text
      match value, Opt.named? spelling with
      | some value, some opt =>
        .ok (if second = '-' then .option opt (some value) else .helpLetters value)
      | _, _ =>
        let candidates :=
          if second = '-' then Opt.all.filter fun o => spelling.toList.isPrefixOf o.long.toList
          else if second = 'h' then [.help]
          else []
        match candidates with
        | [opt] =>
          .ok (if second = '-' then .option opt value else .helpLetters (String.ofList more))
        | [] =>
          if isNegativeNumber text.toList || text.contains ' ' then .ok (.plain text)
          else .ok (.unknown text)
        | _ => .error (.ambiguous text candidates)
  | _ => .ok (.plain text)

/-- The roles of all arguments. -/
def classifyAll : List String → Except UsageFault (List Argument)
  | [] => .ok []
  | text :: rest =>
    if text = "--" then .ok (.terminator :: rest.map .plain)
    else do
      let argument ← classify text
      return argument :: (← classifyAll rest)

end Argument

end CommandLine

end SatLab
