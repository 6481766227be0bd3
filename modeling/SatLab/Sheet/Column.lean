import SatLab.Sheet.Cell
import SatLab.Sheet.Numeral

/-!
Columns of cells and their types.

Some words stand for a missing cell. The cells of a portion of a column have one type, the first
that fits all the others: integers, numbers, flags, text. Integers beside missing cells are taken in
double precision. Then the portions are joined: numbers of different types are taken in double
precision, and beside text or flags with missing cells among them all cells stay as they are.
-/

namespace SatLab

namespace Sheet

/-- The words for a missing cell. -/
def missingWords : List String :=
  ["", "#N/A", "#N/A N/A", "#NA", "-1.#IND", "-1.#QNAN", "-NaN", "-nan", "1.#IND", "1.#QNAN",
    "<NA>", "N/A", "NA", "NULL", "NaN", "None", "n/a", "nan", "null"]

def isMissingWord (word : List Char) : Bool := missingWords.contains (String.ofList word)

/-- The type of a column. -/
inductive ColumnType where
  | signed
  | unsigned
  | real
  | flag
  | text
  /-- Text in which the words for a missing cell are words like any other. -/
  | verbatim
deriving DecidableEq

namespace ColumnType

def signedLow : Int := Int64.minValue.toInt

def signedHigh : Int := Int64.maxValue.toInt

def unsignedHigh : Int := 18446744073709551615

/-- How the integers of a column fit. -/
inductive WholeFit where
  | fits
  | outside
  | none
deriving DecidableEq

/-- Whether all words are integers within bounds; the first one that is not decides. -/
def wholeFit (low high : Int) : List (List Char) → WholeFit
  | [] => .fits
  | word :: rest =>
    match readInteger low high word with
    | .value _ => wholeFit low high rest
    | .outside => .outside
    | .none => .none

/-- Whether a word has a minus sign in front. -/
def isSigned (word : List Char) : Bool := (word.dropWhile isNumberBlank).head? == some '-'

/-- A word for a flag. -/
def readFlag? (word : List Char) : Option Bool :=
  if smallLetters word = "true".toList then some true
  else if smallLetters word = "false".toList then some false
  else none

/-- The type of a column that holds no integers. -/
def ofOtherWords (words : List (List Char)) : ColumnType :=
  if words.all fun w => (readReal? w).isSome then real
  else if words.all fun w => (readFlag? w).isSome then flag
  else text

/-- The type of a column with an integer beyond the signed range. Words with a minus sign are not
looked at, but neither they nor missing cells have room beside a large integer. -/
def ofLargeWords (words : List (List Char)) (gaps : Bool) : ColumnType :=
  let plain := words.filter fun w => !isSigned w
  let mixed := words.any isSigned
  match wholeFit 0 unsignedHigh plain with
  | .none => ofOtherWords words
  | .outside => text
  | .fits =>
    let large := wholeFit 0 signedHigh plain ≠ .fits
    if large ∧ (mixed ∨ gaps) then verbatim else if mixed then text else unsigned

/-- The type of a column with these words besides the missing ones. -/
def ofWords (words : List (List Char)) (gaps : Bool) : ColumnType :=
  match wholeFit signedLow signedHigh words with
  | .fits => signed
  | .none => ofOtherWords words
  | .outside => ofLargeWords words gaps

/-- A signed integer beside missing cells. The least one stands for a missing cell itself. -/
def besideMissing (n : Int) : Cell :=
  let x := Binary64.ofInt n
  if x = .ofInt signedLow then .missing else .real x

/-- Reads a word that does not stand for a missing cell. -/
def knownCell (t : ColumnType) (gaps : Bool) (word : List Char) : Cell :=
  match t with
  | signed =>
    match readInteger signedLow signedHigh word with
    | .value n => if gaps then besideMissing n else .signed (.ofInt n)
    | _ => .missing
  | unsigned =>
    match readInteger 0 unsignedHigh word with
    | .value n => .unsigned (.ofNat n.toNat)
    | _ => .missing
  | real => ((readReal? word).map Cell.real).getD .missing
  | flag => ((readFlag? word).map Cell.flag).getD .missing
  | text | verbatim => .text (String.ofList word)

/-- Reads a word as a cell of a column. -/
def cell (t : ColumnType) (gaps : Bool) (word : List Char) : Cell :=
  if isMissingWord word ∧ t ≠ verbatim then .missing else t.knownCell gaps word

/-- The type of the cells that are read, or none if they are kept one by one. -/
def stored (t : ColumnType) (gaps : Bool) : Option ColumnType :=
  match t with
  | signed => if gaps then real else signed
  | unsigned => unsigned
  | real => real
  | flag => if gaps then none else flag
  | text | verbatim => none

end ColumnType

/-- The cells of a portion, and their type if they have one. -/
def portionCells (words : List (List Char)) : Option ColumnType × List Cell :=
  let known := words.filter fun w => !isMissingWord w
  let gaps := decide (known.length < words.length)
  let type := ColumnType.ofWords known gaps
  (type.stored gaps, words.map (type.cell gaps))

/-- A list in parts of a size, which is taken to be one at least. The first number is a bound on
how many there are. -/
def partsOf {α : Type} (size : Nat) : Nat → List α → List (List α)
  | bound + 1, x :: xs =>
    let rest := x :: xs
    rest.take (max 1 size) :: partsOf size bound (rest.drop (max 1 size))
  | _, _ => []

namespace Cell

/-- A number or a flag in double precision. -/
def asReal (c : Cell) : Cell := (c.real?.map real).getD missing

/-- A flag beside signed integers. -/
def asSigned : Cell → Cell
  | flag value => signed value.toInt64
  | c => c

/-- A flag beside unsigned integers. -/
def asUnsigned : Cell → Cell
  | flag value => unsigned value.toUInt64
  | c => c

/-- How cells are adjusted to cells of other types in their column. -/
def adjustedTo (types : List (Option ColumnType)) : Cell → Cell :=
  if types.contains none then id
  else if types.contains (some .real) then asReal
  else if types.contains (some .signed) then
    if types.contains (some .unsigned) then asReal else asSigned
  else if types.contains (some .unsigned) then asUnsigned
  else id

end Cell

/-- The cells of a column of words, of which so many are typed together. -/
def column (size : Nat) (words : List (List Char)) : List Cell :=
  let portions := (partsOf size words.length words).map portionCells
  (portions.flatMap Prod.snd).map (Cell.adjustedTo (portions.map Prod.fst))

/-- The integer that a cell holds or spells, where numbers are wanted. -/
def wholeCell? (cell : Cell) : Option Int :=
  match cell with
  | .text value =>
    match readInteger ColumnType.signedLow ColumnType.unsignedHigh value.toList with
    | .value n => some n
    | _ => none
  | _ =>
    match cell.number? with
    | some (.whole n) => some n
    | _ => none

/-- A cell as a number of double precision; a text that is none counts as missing. -/
def realCell : Cell → Cell
  | .text value => ((readReal? value.toList).map Cell.real).getD .missing
  | c => c.asReal

/-- A column as numbers. Columns that are numbers or flags already stay as they are; in a column
with text the integers stay exact if there is nothing else in it and one kind of words holds
them. -/
def numericColumn (cells : List Cell) : List Cell :=
  if cells.any Cell.isText then
    match cells.mapM wholeCell? with
    | some ns =>
      if ns.all (· ≤ ColumnType.signedHigh) then ns.map fun n => .signed (.ofInt n)
      else if ns.all (0 ≤ ·) then ns.map fun n => .unsigned (.ofNat n.toNat)
      else cells.map realCell
    | none => cells.map realCell
  else if cells.any Cell.isMissing then cells.map realCell
  else cells

end Sheet

end SatLab
