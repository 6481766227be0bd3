import SatLab.Document.Arithmetic
import SatLab.Document.Shown

/-!
Cells that have been read: their order as keys, and their differences.

Integers are words of 64 bits. A column with an integer beyond the signed range has unsigned ones.
-/

namespace SatLab

namespace Sheet

/-- A cell that has been read. -/
inductive Cell where
  | missing
  | flag (value : Bool)
  | signed (value : Int64)
  | unsigned (value : UInt64)
  | real (value : Binary64)
  | text (value : String)
deriving DecidableEq

namespace Cell

/-- The number a cell holds. A flag counts as zero or one. -/
def number? : Cell → Option Number
  | flag value => some (.whole (if value then 1 else 0))
  | signed value => some (.whole value.toInt)
  | unsigned value => some (.whole value.toNat)
  | real value => some (.real value)
  | missing | text _ => none

/-- The number a cell holds, in double precision. -/
def real? (c : Cell) : Option Binary64 :=
  match c.number? with
  | some (.whole value) => some (.ofInt value)
  | some (.real value) => some value
  | none => none

def isMissing : Cell → Bool
  | missing => true
  | _ => false

def isText : Cell → Bool
  | text _ => true
  | _ => false

/-- A number in double precision as a cell; an undefined one is missing. -/
def ofReal (x : Binary64) : Cell := if x.isUndefined then missing else real x

/-- Whether one cell holds a smaller number than another one. -/
def lt (a b : Cell) : Bool :=
  match a.number?, b.number? with
  | some x, some y => x.lt y
  | _, _ => false

/-- Whether two cells stand for the same key. Numbers do if they are equal. -/
def same (a b : Cell) : Bool :=
  match a.number?, b.number? with
  | some x, some y => x.equal y
  | _, _ => decide (a = b)

/-- The order of keys. A missing key comes first. -/
def le : Cell → Cell → Bool
  | missing, _ => true
  | _, missing => false
  | flag a, flag b => !a || b
  | flag _, _ => true
  | _, flag _ => false
  | text a, text b => decide (a ≤ b)
  | text _, _ => false
  | _, text _ => true
  | a, b => !b.lt a

/-- A cell as a part of a text. -/
def shown : Cell → String
  | missing => "nan"
  | flag value => flagText value
  | signed value => toString value.toInt
  | unsigned value => toString value.toNat
  | real value => value.text
  | text value => value

/-- The difference of two cells as numbers of double precision; it is missing if one of them
is no number. -/
def realDifference (a b : Cell) : Cell :=
  match a.real?, b.real? with
  | some x, some y => ofReal (x - y)
  | _, _ => missing

/-- The difference of two cells. Words of one kind wrap around, a flag counts as a word beside a
word, and any other numbers are taken in double precision. Two flags have no difference. -/
def difference? : Cell → Cell → Option Cell
  | flag _, flag _ => none
  | signed a, signed b => some (signed (a - b))
  | signed a, flag b => some (signed (a - b.toInt64))
  | flag a, signed b => some (signed (a.toInt64 - b))
  | unsigned a, unsigned b => some (unsigned (a - b))
  | unsigned a, flag b => some (unsigned (a - b.toUInt64))
  | flag a, unsigned b => some (unsigned (a.toUInt64 - b))
  | a, b => some (realDifference a b)

/-- A cell whose integers are taken in double precision. -/
def widened : Cell → Cell
  | signed value => real (.ofInt value.toInt)
  | unsigned value => real (.ofInt value.toNat)
  | c => c

end Cell

end Sheet

end SatLab
