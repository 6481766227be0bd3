import SatLab.Sheet.Column
import SatLab.Sheet.Engine
import SatLab.Sheet.Reader

/-!
The engine that reads sheets: names of columns, typed columns, and comparisons of their cells.
-/

namespace SatLab

namespace Sheet

/-- A name for a column that has none, or whose name is taken. -/
def freshName (taken : List String) (name : String) : String :=
  match (List.range' 1 (taken.length + 1)).find? fun n =>
      !taken.contains (name ++ "." ++ toString n) with
  | some n => name ++ "." ++ toString n
  | none => name

/-- Names in order, each with its place. A name that has been seen is replaced in the list of all
names. -/
def distinctNames (all seen : List String) : List (String × Nat) → List String
  | [] => all
  | (name, place) :: rest =>
    if seen.contains name then
      let fresh := freshName all name
      distinctNames (all.set place fresh) (fresh :: seen) rest
    else distinctNames all (name :: seen) rest

/-- The name of a column. A column without one is called by its place. -/
def columnName (word : List Char) (place : Nat) : String :=
  if word.isEmpty then "Unnamed: " ++ toString place else String.ofList word

/-- The names of the columns, made different; columns with a name of their own keep it first. -/
def columnNames (header : List (List Char)) : List String :=
  let named := header.zipIdx.map fun entry => (columnName entry.1 entry.2, entry.2)
  let blank (entry : String × Nat) : Bool := header[entry.2]? == some []
  distinctNames (named.map Prod.fst) []
    (named.filter (fun e => !blank e) ++ named.filter blank)

/-- The columns of rows of one width. -/
def columnsOf (width : Nat) (rows : List (List (List Char))) : List (List (List Char)) :=
  (List.range width).map fun place => rows.map fun row => row.getD place []

/-- The rows of columns. -/
def cellRows (count : Nat) (columns : List (List Cell)) : List (List Cell) :=
  columns.foldr (List.zipWith (· :: ·)) (List.replicate count [])

/-- The rows with the cells of the columns, of which the first ones are labels. -/
def rowsOf (count leading : Nat) (columns : List (List Cell)) : List Row :=
  (cellRows count columns).zipIdx.map fun (cells, n) =>
    { label := if leading = 0 then [.signed (.ofNat n)] else cells.take leading,
      cells := cells.drop leading }

/-- The width of a sheet: the first row after the names may be longer than they are. -/
def widthOf (header : List (List Char)) (body : List (List (List Char))) : Nat :=
  max header.length (body.headD []).length

/-- The table of a text. If the first row has more cells than there are names, the first columns
are the labels of the rows. -/
def table (text : List Char) : Except SheetFault Table := do
  match ← rows text with
  | [] => throw .noColumns
  | header :: body =>
    let width := widthOf header body
    let columns := (columnsOf width body).map (column (Anchor.portion width))
    return { names := columnNames header,
             rows := rowsOf body.length (width - header.length) columns }

/-- The rows of a text that are typed together: as many as are read at once. -/
def portionOf (text : List Char) : Nat :=
  match rows text with
  | .ok (header :: body) => Anchor.portion (widthOf header body)
  | _ => 0

/-- Whether a cell is a number within a limit. -/
def isAtMost (limit : Int) (cell : Cell) : Except SheetFault Bool :=
  match cell with
  | .text _ => .error .notOrdered
  | _ =>
    match cell.number? with
    | some n => .ok (n.equal (.whole limit) || n.lt (.whole limit))
    | none => .ok false

/-- The engine that reads sheets. -/
def standard : Engine where
  read := table
  portion := portionOf
  atMost := fun limit cells => cells.mapM (isAtMost limit)
  toNumbers := numericColumn

/-- The results in a text, as they are read. -/
def results (text : List Char) : Except SheetFault Table := standard.results text

end Sheet

end SatLab
