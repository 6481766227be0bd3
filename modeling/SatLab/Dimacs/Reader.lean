import SatLab.Formula.Basic
import SatLab.Text.DecimalDigit
import SatLab.Text.Lines

/-!
The DIMACS format: clauses as rows of integers, each closed by a zero.

Lines that begin with `c`, `p` or `%` are skipped, also inside a clause. In all other lines every
row of decimal digits is a number, negative if a minus sign stands in front of it. A clause is
kept without repetitions, and a clause without literals is not kept. The last clause needs no
zero.
-/

namespace SatLab

/-- A number written with more digits than are read. -/
structure NumeralTooLong where
  digits : Nat
deriving DecidableEq

namespace NumeralTooLong

def message (e : NumeralTooLong) : String :=
  "Exceeds the limit (" ++ toString integerDigitLimit ++
    " digits) for integer string conversion: value has " ++ toString e.digits ++
    " digits; use sys.set_int_max_str_digits() to increase the limit"

end NumeralTooLong

namespace Dimacs

/-- A number as it stands in a line. -/
structure Numeral where
  negative : Bool
  digits : List Char
deriving DecidableEq

/-- The numbers of a line, from the left. While a number is open, `current` holds its sign and
the digits read so far, the last one first; `minus` tells whether a minus sign was just read. -/
def numeralsFrom (current : Option Numeral) (minus : Bool) : List Char → List Numeral
  | [] => (current.map fun n => { n with digits := n.digits.reverse }).toList
  | c :: rest =>
    match current with
    | some n =>
      if isDecimalDigit c then numeralsFrom (some { n with digits := c :: n.digits }) false rest
      else { n with digits := n.digits.reverse } :: numeralsFrom none (c == '-') rest
    | none =>
      if isDecimalDigit c then numeralsFrom (some { negative := minus, digits := [c] }) false rest
      else numeralsFrom none (c == '-') rest

def numerals (line : List Char) : List Numeral := numeralsFrom none false line

/-- The value of a number, unless it has too many digits. -/
def Numeral.value (n : Numeral) : Except NumeralTooLong Int :=
  if integerDigitLimit < n.digits.length then .error { digits := n.digits.length }
  else
    let magnitude : Int := decimalValue n.digits
    .ok (if n.negative then -magnitude else magnitude)

/-- Lines that hold no clauses. -/
def isSkipped (line : List Char) : Bool :=
  match line with
  | [] => false
  | c :: _ => c == 'p' || c == 'c' || c == '%'

/-- The decimal numeral of a natural number is not empty. -/
theorem toString_ne_empty (n : Nat) : toString n ≠ "" := by
  intro h
  have hDigits : (toString n).toList = [] := by rw [h]; rfl
  simp [Nat.toList_repr, toString] at hDigits

/-- The literal of a number other than zero. -/
def literalOf (k : Int) : Literal :=
  { name := toString k.natAbs, negated := decide (k < 0),
    name_ne_empty := toString_ne_empty k.natAbs }

/-- What has been read: the closed clauses, the last one first, and the literals of the clause
that is open. -/
structure Progress where
  closed : List Clause
  opened : Clause

namespace Progress

def empty : Progress := { closed := [], opened := [] }

/-- The clauses read so far, the open one closed. -/
def formula (p : Progress) : Formula :=
  (if p.opened.isEmpty then p.closed else p.opened :: p.closed).reverse

/-- One number: a zero closes the open clause, any other number adds its literal. -/
def addNumber (p : Progress) (k : Int) : Progress :=
  if k = 0 then
    { closed := if p.opened.isEmpty then p.closed else p.opened :: p.closed, opened := [] }
  else if p.opened.contains (literalOf k) then p
  else { p with opened := p.opened ++ [literalOf k] }

def addLine (p : Progress) (line : List Char) : Except NumeralTooLong Progress :=
  if isSkipped line then .ok p
  else (numerals line).foldlM (fun q n => return q.addNumber (← n.value)) p

end Progress

/-- The formula of a text. -/
def parse (text : List Char) : Except NumeralTooLong Formula := do
  let p ← (Lines.ofChars text).all.foldlM Progress.addLine .empty
  return p.formula

/-- The first number that is too long in the lines of a text that are known to be ended. A
carriage return at the very end does not yet end its line. -/
def firstFault? (text : List Char) : Option NumeralTooLong :=
  let settled := if text.getLast? = some '\r' then text.dropLast else text
  match (Lines.ofChars settled).ended.foldlM Progress.addLine .empty with
  | .error e => some e
  | .ok _ => none

end Dimacs

end SatLab
