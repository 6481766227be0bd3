import SatLab.CommandLine.Argument

/-!
What the arguments of the command line ask for.

A formula is given as text or in a file, never both. The value of an option stands in its own
argument or is the next one. Where the conventions for arguments have changed with time, they are
the ones of release 3.11 here.
-/

namespace SatLab

namespace CommandLine

/-- The options as they are used. -/
structure Options where
  formula : Option String
  file : Option String
  /-- A solver is missing if a lone double dash was written into the argument as its value. -/
  solver : Option SolverName
  stats : Bool
  verify : Bool
deriving DecidableEq

/-- What the arguments ask for. -/
inductive Request where
  | help
  | solve (options : Options)
deriving DecidableEq

/-- What has been read of the arguments: the options, whether the place of the formula is taken,
and the arguments left over. -/
structure Reading where
  options : Options
  formulaSeen : Bool
  left : List String

namespace Reading

def start : Reading :=
  { options := { formula := none, file := none, solver := some .dpll, stats := false,
                 verify := false },
    formulaSeen := false, left := [] }

/-- What follows `-h` in one argument may only repeat the letter. -/
def helpRest (value : List Char) : Except UsageFault Unit :=
  match value with
  | 'h' :: [] => .ok ()
  | 'h' :: more => helpRest more
  | _ => .error (.valueNotTaken .help (String.ofList value))

def setFormula (r : Reading) (text : String) : Except UsageFault Reading :=
  if r.options.file.isSome then .error .formulaBesideFile
  else .ok { r with options := { r.options with formula := some text }, formulaSeen := true }

def setValue (r : Reading) (option : Opt) (value : String) : Except UsageFault Reading :=
  match option with
  | .file =>
    if r.options.formula.isSome then .error .fileBesideFormula
    else .ok { r with options := { r.options with file := some value } }
  | .solver =>
    match SolverName.named? value with
    | some name => .ok { r with options := { r.options with solver := some name } }
    | none => .error (.unknownSolver value)
  | _ => .error (.valueNotTaken option value)

/-- A value written into the argument of its option. In release 3.11 a lone double dash is dropped
from the values of every option, so nothing is left of such a value: a file has no name then, and no
solver is named. Later releases keep it as the value, and it names no solver either. -/
def setAttached (r : Reading) (option : Opt) (value : String) : Except UsageFault Reading :=
  if value = "--" then
    match option with
    | .solver => .ok { r with options := { r.options with solver := none } }
    | _ => setValue r option (if option = .file then "" else value)
  else setValue r option value

def setFlag (r : Reading) (option : Opt) : Reading :=
  match option with
  | .stats => { r with options := { r.options with stats := true } }
  | .verify => { r with options := { r.options with verify := true } }
  | _ => r

/-- The request once all arguments are read. -/
def finish (r : Reading) : Except UsageFault Request :=
  if r.options.formula.isNone && r.options.file.isNone then .error .nothingToSolve
  else if r.left.isEmpty then .ok (.solve r.options)
  else .error (.unrecognized r.left)

/-- Reads the arguments from the left. The first plain argument is the formula, and a double
dash next to it is dropped; plain arguments after it are left over. -/
def readFrom (r : Reading) : List Argument → Except UsageFault Request
  | [] => r.finish
  | .unknown text :: rest => readFrom { r with left := r.left ++ [text] } rest
  | .option .help none :: _ => .ok .help
  | .option opt none :: .plain value :: rest =>
    if opt.takesValue then do
      let r ← r.setValue opt value
      readFrom r rest
    else readFrom (r.setFlag opt) (.plain value :: rest)
  | .option opt none :: rest =>
    if opt.takesValue then .error (.valueMissing opt) else readFrom (r.setFlag opt) rest
  | .option opt (some value) :: rest =>
    if opt.takesValue then do
      let r ← r.setAttached opt value
      readFrom r rest
    else .error (.valueNotTaken opt value)
  | .helpLetters more :: _ => do
    helpRest more.toList
    return .help
  | .plain text :: .terminator :: rest =>
    if r.formulaSeen then readFrom { r with left := r.left ++ [text] } (.terminator :: rest)
    else do
      let r ← r.setFormula text
      readFrom r rest
  | .plain text :: rest =>
    if r.formulaSeen then readFrom { r with left := r.left ++ [text] } rest
    else do
      let r ← r.setFormula text
      readFrom r rest
  | .terminator :: .plain text :: rest =>
    if r.formulaSeen then readFrom { r with left := r.left ++ ["--"] } (.plain text :: rest)
    else do
      let r ← r.setFormula text
      readFrom r rest
  | .terminator :: rest =>
    if r.formulaSeen then readFrom { r with left := r.left ++ ["--"] } rest
    else readFrom { r with formulaSeen := true } rest

end Reading

/-- What a list of arguments asks for. -/
def Request.ofArguments (arguments : List String) : Except UsageFault Request := do
  Reading.readFrom .start (← Argument.classifyAll arguments)

end CommandLine

end SatLab
