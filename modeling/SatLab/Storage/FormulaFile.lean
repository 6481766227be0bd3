import SatLab.Braces.Parser
import SatLab.Dimacs.Reader
import SatLab.Storage.FileTree
import SatLab.Storage.PathName
import SatLab.Text.Utf8

/-!
Formulas in files: DIMACS files by their suffix, brace notation in all others.
-/

namespace SatLab

/-- Why a file gives no formula. -/
inductive FormulaFault where
  | syntaxFault (fault : SyntaxFault)
  | numeral (fault : NumeralTooLong)
  | access (fault : AccessFault)
  | encoding (fault : Utf8Fault)
deriving DecidableEq

namespace FormulaFault

def message : FormulaFault → String
  | syntaxFault fault => fault.message
  | numeral fault => fault.message
  | access fault => fault.message
  | encoding fault => fault.message

end FormulaFault

namespace Dimacs

/-- The formula of the bytes of a file. A fault of the encoding counts only after all lines that
were ended before it. -/
def ofBytes (bytes : List UInt8) : Except FormulaFault Formula :=
  let decoded := Utf8.decodeBlocks [] bytes
  match decoded.fault with
  | none => (parse decoded.text).mapError .numeral
  | some fault =>
    match firstFault? decoded.text with
    | some early => .error (.numeral early)
    | none => .error (.encoding fault)

/-- Reads a DIMACS file. -/
def ofFile (files : FileTree) (path : String) : Except FormulaFault Formula := do
  ofBytes (← (files.read path).mapError .access)

end Dimacs

namespace Formula

/-- The formula in brace notation of the bytes of a file. -/
def ofBytes (bytes : List UInt8) : Except FormulaFault Formula := do
  let text ← (Utf8.decode bytes).mapError .encoding
  (Formula.parse (String.ofList text)).mapError .syntaxFault

/-- The formula of the bytes of a file with the given path. -/
def ofFileBytes (path : PathName) (bytes : List UInt8) : Except FormulaFault Formula :=
  if path.suffix == ".cnf" then Dimacs.ofBytes bytes else ofBytes bytes

/-- Reads a formula from a file in either format. -/
def ofFile (files : FileTree) (path : String) : Except FormulaFault Formula := do
  let path := PathName.ofString path
  ofFileBytes path (← (files.read path.text).mapError .access)

end Formula

end SatLab
