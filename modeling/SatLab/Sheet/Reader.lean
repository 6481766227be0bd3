import SatLab.Sheet.Table

/-!
Reading the rows of a sheet.

Commas separate cells, and a line end closes a row. A quote at the start of a cell opens a quoted
part, in which commas and line ends are ordinary characters and a quote is written twice; after
the closing quote the cell goes on without quotes. A cell ends at its first null character. Lines
that are empty or hold only blanks are skipped.

A line that starts with blanks and holds something else is read again from the last line feed
before it, or from the start of the portion of rows that is being read. If lines end in a carriage
return alone, rows before it are then read twice, and so on until the portion is full.

The first row has the names of the columns. The first row after it may be longer, and every later
row has at most as many cells as the row before it; a shorter row is filled up with empty cells.
-/

namespace SatLab

namespace Sheet

/-- Where in a row the reader is. -/
inductive Position where
  | rowStart
  /-- After blanks at the start of a line. -/
  | blankStart
  | cellStart
  | inCell
  | inQuotes
  /-- After a quote in a quoted part. -/
  | afterQuote
  /-- After a carriage return that ends a row. -/
  | afterReturn
  /-- After a carriage return that ends a skipped line. -/
  | afterSkip
deriving DecidableEq

/-- What the reader has: the rows that are closed, the cells of the open row, and the characters
of the open cell, each with the last one first, the number of closed rows, and the number of lines
closed or skipped. -/
structure Reading where
  position : Position
  rows : List (List (List Char))
  cells : List (List Char)
  cell : List Char
  count : Nat
  lines : Nat

namespace Reading

def start : Reading :=
  { position := .rowStart, rows := [], cells := [], cell := [], count := 0, lines := 0 }

def isBlank (c : Char) : Bool := c == ' ' || c == '\t'

def push (r : Reading) (c : Char) (position : Position) : Reading :=
  { r with cell := c :: r.cell, position }

/-- Closes the open cell. -/
def endCell (r : Reading) : Reading :=
  { r with cells := r.cell.reverse.takeWhile (· != '\x00') :: r.cells, cell := [] }

/-- Closes the open row. -/
def endRow (r : Reading) : Except SheetFault Reading :=
  let row := r.cells.reverse
  let closed (row : List (List Char)) : Reading :=
    { r with position := .rowStart, rows := row :: r.rows, cells := [], count := r.count + 1,
             lines := r.lines + 1 }
  match r.rows with
  | [] => .ok (closed row)
  | before :: earlier =>
    if !earlier.isEmpty && decide (before.length < row.length) then
      .error (.tooManyCells before.length (r.lines + 1) row.length)
    else .ok (closed (row.rightpad before.length []))

/-- Skips a line. -/
def skipLine (r : Reading) (position : Position) : Reading :=
  { r with position, cell := [], lines := r.lines + 1 }

/-- A character at the start of a cell. -/
def startCell (r : Reading) (c : Char) : Except SheetFault Reading :=
  if c = '\n' then r.endCell.endRow
  else if c = '\r' then .ok { r.endCell with position := .afterReturn }
  else if c = '"' then .ok { r with position := .inQuotes }
  else if c = ',' then .ok { r.endCell with position := .cellStart }
  else .ok (r.push c .inCell)

/-- A character at the start of a row. -/
def startRow (r : Reading) (c : Char) : Except SheetFault Reading :=
  if c = '\n' then .ok (r.skipLine .rowStart)
  else if c = '\r' then .ok (r.skipLine .afterSkip)
  else if isBlank c then .ok (r.push c .blankStart)
  else r.startCell c

/-- A character in a cell outside quotes. -/
def continueCell (r : Reading) (c : Char) : Except SheetFault Reading :=
  if c = '\n' then r.endCell.endRow
  else if c = '\r' then .ok { r.endCell with position := .afterReturn }
  else if c = ',' then .ok { r.endCell with position := .cellStart }
  else .ok (r.push c .inCell)

def step (r : Reading) (c : Char) : Except SheetFault Reading :=
  match r.position with
  | .rowStart => r.startRow c
  | .blankStart =>
    if c = '\n' then .ok (r.skipLine .rowStart)
    else if c = '\r' then .ok (r.skipLine .afterSkip)
    else if isBlank c then .ok (r.push c .blankStart)
    else r.continueCell c
  | .cellStart => r.startCell c
  | .inCell => r.continueCell c
  | .inQuotes => .ok (if c = '"' then { r with position := .afterQuote } else r.push c .inQuotes)
  | .afterQuote => if c = '"' then .ok (r.push c .inQuotes) else r.continueCell c
  | .afterReturn =>
    if c = '\n' then r.endRow
    else do (← r.endRow).startRow c
  | .afterSkip =>
    if c = '\n' ∨ c = ',' then .ok { r with position := .rowStart } else r.startRow c

/-- The end of the text closes the open row. -/
def finish (r : Reading) : Except SheetFault Reading :=
  match r.position with
  | .rowStart | .blankStart | .afterSkip => .ok r
  | .inQuotes => .error (.openQuote r.lines)
  | .afterReturn => r.endRow
  | _ => r.endCell.endRow

/-- Whether a character shows that a line that starts with blanks holds something else. -/
def showsText (r : Reading) (c : Char) : Bool :=
  r.position == .blankStart && !(isBlank c || c == '\n' || c == '\r')

end Reading

/-- The text to go back to, and the number of rows at which the next portion begins. -/
structure Anchor where
  text : List Char
  bound : Nat

namespace Anchor

/-- The most rows in a portion: the largest power of two below `2 ^ 20` cells, or one row. -/
def portion (width : Nat) : Nat := Nat.pow 2 (Nat.log2 (1048576 / width - 1))

/-- The first portion is the names of the columns and one row. -/
def firstBound : Nat := 2

def ofText (text : List Char) : Anchor := { text, bound := firstBound }

/-- The bound after a full portion. The second portion counts the row that is read already. -/
def nextBound (a : Anchor) (width : Nat) : Nat :=
  if a.bound = firstBound then portion width + 1 else a.bound + portion width

/-- The anchor after a character. A character that only shows that a row has ended belongs to
the next portion. -/
def after (a : Anchor) (before reached : Reading) (c : Char) (rest : List Char) : Anchor :=
  if a.bound ≤ reached.count then
    let showsEnd := before.position = .afterReturn ∧ c ≠ '\n' ∧ c ≠ ','
    { text := if showsEnd then c :: rest else rest,
      bound := a.nextBound (reached.rows.headD []).length }
  else if c = '\n' then { a with text := rest }
  else a

end Anchor

/-- Reads a text. Between two times that it goes back a row is closed, so `again` bounds how often
that happens. -/
def Reading.readText (again : Nat) (a : Anchor) (r : Reading) (text : List Char) :
    Except SheetFault Reading :=
  match again, text with
  | _, [] => r.finish
  | again + 1, c :: rest =>
    if r.showsText c then
      readText again a { r with position := .cellStart, cell := [] } a.text
    else do
      let reached ← r.step c
      readText (again + 1) (a.after r reached c rest) reached rest
  | 0, c :: rest => do readText 0 a (← r.step c) rest
termination_by (again, text.length)

/-- How often reading a text goes back at most: less often than rows fit into portions, of which
each starts at a later character. -/
def againLimit (text : List Char) : Nat := (text.length + 2) * 1048576

/-- The rows of a text. A byte order mark at the start is dropped. -/
def rows (text : List Char) : Except SheetFault (List (List (List Char))) := do
  let text := if text.head? = some '\ufeff' then text.tail else text
  return (← Reading.readText (againLimit text) (.ofText text) .start text).rows.reverse

end Sheet

end SatLab
