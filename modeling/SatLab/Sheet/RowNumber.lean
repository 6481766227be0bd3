import SatLab.Sheet.Numeral
import SatLab.Sheet.Table
import SatLab.Text.Blank
import SatLab.Text.DecimalDigit

/-!
The numbers of the rows of a table.

A row is numbered by its label. A number is cut to its integral part, and a text has to spell an
integer: decimal digits of any script, with single underscores between them, perhaps a sign in front
and blanks around.
-/

namespace SatLab

/-- Why the label of a row is no number. -/
inductive LabelFault where
  | notInteger (text : String)
  | tooLong (digits : Nat)
  | undefined
  | infinite
  /-- A row with several labels. -/
  | several
deriving DecidableEq

namespace LabelFault

/-- The most characters of a text that are quoted. -/
def quoteLimit : Nat := 200

def message : LabelFault → String
  | notInteger text =>
    "invalid literal for int() with base 10: " ++
      String.ofList ((quoted text).toList.take quoteLimit)
  | tooLong digits =>
    "Exceeds the limit (4300 digits) for integer string conversion: value has " ++
      toString digits ++ " digits; use sys.set_int_max_str_digits() to increase the limit"
  | undefined => "cannot convert float NaN to integer"
  | infinite => "cannot convert float infinity to integer"
  | several =>
    "int() argument must be a string, a bytes-like object or a real number, not 'tuple'"

end LabelFault

namespace Sheet

/-- The blanks around an integer: in plain text those of a number, and beyond it all. -/
def isIntegerBlank (c : Char) : Bool := isNumberBlank c || (127 ≤ c.toNat && isBlank c)

/-- Digits with single underscores between them. -/
def isDigitRow (text : List Char) : Bool :=
  (text.splitOn '_').all fun part => !part.isEmpty && part.all isDecimalDigit

/-- The integer that a text spells. -/
def readLabel (text : String) : Except LabelFault Int :=
  let (negative, rest) := splitSign (text.toList.dropWhile isIntegerBlank)
  let row := rest.takeWhile fun c => isDecimalDigit c || c == '_'
  if isDigitRow row then
    let digits := row.filter isDecimalDigit
    if integerDigitLimit < digits.length then .error (.tooLong digits.length)
    else if ((rest.drop row.length).dropWhile isIntegerBlank).isEmpty then
      let value : Int := decimalValue digits
      .ok (if negative then -value else value)
    else .error (.notInteger text)
  else .error (.notInteger text)

/-- The integral part of a number of double precision. -/
def integralPart : Binary64 → Except LabelFault Int
  | .undefined => .error .undefined
  | .infinite _ => .error .infinite
  | .finite negative units _ =>
    let value : Int := units / Binary64.unitsPerOne
    .ok (if negative then -value else value)

/-- The integer a label stands for. -/
def Cell.toInteger : Cell → Except LabelFault Int
  | missing => .error .undefined
  | flag value => .ok value.toNat
  | signed value => .ok value.toInt
  | unsigned value => .ok value.toNat
  | real value => integralPart value
  | text value => readLabel value

/-- The number of a row. -/
def Row.number (r : Row) : Except LabelFault Int :=
  match r.label with
  | [label] => label.toInteger
  | _ => .error .several

end Sheet

end SatLab
