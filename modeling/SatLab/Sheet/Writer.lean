import SatLab.Document.Shown

/-!
Rows of a sheet as text. Cells are separated by commas and rows end with a carriage return and a
line feed.
-/

namespace SatLab

namespace Sheet

/-- Characters that a cell can only hold in quotes. -/
def isSpecial (c : Char) : Bool := c == ',' || c == '"' || c == '\r' || c == '\n'

/-- A cell inside quotes: a quote is written twice. -/
def doubledQuotes (cell : List Char) : List Char :=
  cell.flatMap fun c => if c = '"' then ['"', '"'] else [c]

def quotedCell (cell : List Char) : List Char := '"' :: (doubledQuotes cell ++ ['"'])

/-- A cell, in quotes only if it needs them. -/
def cellChars (cell : List Char) : List Char :=
  if cell.any isSpecial then quotedCell cell else cell

/-- The cells of a row with commas between them. A row of one empty cell is written in quotes,
to tell it from a row without cells. -/
def rowCells (cells : List (List Char)) : List Char :=
  match cells with
  | [[]] => quotedCell []
  | _ => [','].intercalate (cells.map cellChars)

/-- A row with its line end. -/
def rowChars (cells : List String) : List Char :=
  rowCells (cells.map String.toList) ++ ['\r', '\n']

/-- A document as a cell; a missing value is an empty cell. -/
def cellText : Document → Except Misuse String
  | .null => .ok ""
  | d => d.shown

/-- A cell with every surrogate that stands alone replaced by a question mark. -/
def markedCell (d : Document) (text : String) : String :=
  match d with
  | .unpaired codes =>
    String.ofList (codes.map fun code => if code.isValidChar then Char.ofNat code else '?')
  | _ => text

/-- The first surrogate that stands alone. -/
def surrogateIn? (cells : List Document) : Option Nat :=
  cells.findSome? fun d =>
    match d with
    | .unpaired codes => codes.find? fun code => !decide code.isValidChar
    | _ => none

/-- Documents as a row. A row with a surrogate that stands alone is not written; its place shows
where two ways to replace it differ. -/
def rowText (cells : List Document) : Except Misuse String := do
  let texts ← cells.mapM cellText
  let row := rowChars texts
  match surrogateIn? cells with
  | none => return String.ofList row
  | some code =>
    let differs := List.zipWith (· != ·) row (rowChars (List.zipWith markedCell cells texts))
    let place := (differs.takeWhile (!·)).length
    throw (.unpairedSurrogate code place ((differs.drop place).takeWhile id).length)

end Sheet

end SatLab
