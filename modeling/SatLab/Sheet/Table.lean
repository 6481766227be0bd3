import SatLab.Document.Misuse
import SatLab.Sheet.Cell

/-!
Tables with named columns, and why there may be none.
-/

namespace SatLab

/-- Why a text is no sheet. -/
inductive SheetFault where
  | noColumns
  | tooManyCells (expected line seen : Nat)
  /-- A quoted part does not end; the line is counted from zero. -/
  | openQuote (line : Nat)
  | columnMissing (name : String)
  /-- Cells that are no numbers cannot be compared with a number. -/
  | notOrdered
deriving DecidableEq

namespace SheetFault

def message : SheetFault → String
  | noColumns => "No columns to parse from file"
  | tooManyCells expected line seen =>
    "Error tokenizing data. C error: Expected " ++ toString expected ++ " fields in line " ++
      toString line ++ ", saw " ++ toString seen ++ "\n"
  | openQuote line =>
    "Error tokenizing data. C error: EOF inside string starting at row " ++ toString line
  | columnMissing name => quoted name
  | notOrdered => (Misuse.notOrdered "<=" .text .whole).message

end SheetFault

namespace Sheet

/-- A row of a table and what it is called by: its number, or the cells in front of the first
named column. -/
structure Row where
  label : List Cell
  cells : List Cell
deriving DecidableEq

/-- A table with named columns. -/
structure Table where
  names : List String
  rows : List Row
deriving DecidableEq

/-- The items that are chosen. -/
def chosen {α : Type} : List α → List Bool → List α
  | x :: xs, keep :: rest => if keep then x :: chosen xs rest else chosen xs rest
  | _, _ => []

namespace Table

/-- The place of a column. -/
def place (t : Table) (name : String) : Except SheetFault Nat :=
  match t.names.idxOf? name with
  | some n => .ok n
  | none => .error (.columnMissing name)

/-- The cells of a column. -/
def column (t : Table) (place : Nat) : List Cell :=
  t.rows.map fun row => row.cells.getD place .missing

/-- A table with a column replaced. -/
def setColumn (t : Table) (place : Nat) (column : List Cell) : Table :=
  let replace (row : Row) (cell : Cell) : Row := { row with cells := row.cells.set place cell }
  { t with rows := List.zipWith replace t.rows column }

/-- A table with the chosen rows. -/
def select (t : Table) (keep : List Bool) : Table := { t with rows := chosen t.rows keep }

end Table

end Sheet

end SatLab
