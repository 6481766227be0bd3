import SatLab.Document.Misuse
import SatLab.Number.Mean

/-!
Arithmetic and order on the numbers of documents.

Integers are exact. Where an integer meets a number of double precision it is rounded to one
first, and it must be in their range; comparisons are exact. A flag counts as zero or one.
-/

namespace SatLab

namespace Number

/-- The place of a number in the order of all numbers: which infinity it is, and its value in
units if it is none. An undefined number has no place. -/
def place : Number → Option (Int × Int)
  | whole value => some (0, value * Binary64.unitsPerOne)
  | real (.finite negative units _) => some (0, if negative then -(units : Int) else units)
  | real (.infinite negative) => some (if negative then -1 else 1, 0)
  | real .undefined => none

/-- Whether one number is smaller; never so when one of them is undefined. -/
def lt (x y : Number) : Bool :=
  match x.place, y.place with
  | some a, some b => decide (a.1 < b.1 ∨ (a.1 = b.1 ∧ a.2 < b.2))
  | _, _ => false

/-- Numeric equality; an undefined number equals none. -/
def equal (x y : Number) : Bool :=
  match x.place, y.place with
  | some a, some b => decide (a = b)
  | _, _ => false

/-- The smaller of two; the first one stays unless the second is smaller. -/
def smaller (x y : Number) : Number := if lt y x then y else x

/-- The larger of two; the first one stays unless the second is larger. -/
def larger (x y : Number) : Number := if lt x y then y else x

/-- A number in double precision. -/
def toReal : Number → Except Misuse Binary64
  | whole value =>
    let x := Binary64.ofInt value
    if x.isFinite then .ok x else .error .wholeTooLarge
  | real value => .ok value

def add : Number → Number → Except Misuse Number
  | whole a, whole b => .ok (.whole (a + b))
  | x, y => return .real ((← x.toReal) + (← y.toReal))

/-- The quotient by a number other than zero. Two integers are divided exactly before the
quotient is rounded. -/
def quotient : Number → Number → Except Misuse Binary64
  | whole a, whole b =>
    let q := Binary64.ofRatio (decide (a < 0) ^^ decide (b < 0)) a.natAbs b.natAbs
    if q.isFinite then .ok q else .error .quotientTooLarge
  | x, y => return (← x.toReal) / (← y.toReal)

/-- The value of a finite number in units. -/
def units : Number → Int
  | whole value => value * Binary64.unitsPerOne
  | real value => value.signedUnits

/-- The value of an integer. -/
def whole? : Number → Option Int
  | whole value => some value
  | real _ => none

/-- The numbers that are not finite. -/
def nonFinite? : Number → Option Binary64
  | real value => if value.isFinite then none else some value
  | whole _ => none

/-- The mean of numbers. The exact sum is divided by the count and rounded once, and an integral
mean of integers stays one. -/
def mean (xs : List Number) : Except Misuse Number :=
  if xs.isEmpty then .error .nothingToAverage
  else
    match xs.filterMap nonFinite? with
    | first :: rest => .ok (.real (rest.foldl (· + ·) first))
    | [] =>
      let total := xs.foldr (fun x total => x.units + total) 0
      let divisor : Int := xs.length * Binary64.unitsPerOne
      if (xs.all (·.whole?.isSome)) && total % divisor == 0 then .ok (.whole (total / divisor))
      else
        let mean := Binary64.ofUnits (decide (total < 0)) total.natAbs xs.length
        if mean.isFinite then .ok (.real mean) else .error .quotientTooLarge

end Number

namespace Document

/-- The number a document stands for. -/
def number? : Document → Option Number
  | flag value => some (.whole (if value then 1 else 0))
  | number value => some value
  | _ => none

/-- Whether a document is a number of this value. -/
def isValue (d : Document) (n : Number) : Bool :=
  match d.number? with
  | some m => m.equal n
  | none => false

/-- Whether a document is neither missing nor zero nor empty. -/
def isPresent : Document → Bool
  | null => false
  | flag value => value
  | number value => !value.equal (.whole 0)
  | text value => !value.isEmpty
  | unpaired codes => !codes.isEmpty
  | list items => !items.isEmpty
  | record fields => !fields.isEmpty

/-- Whether a document is a number of at least this value. -/
def atLeast (d : Document) (n : Number) : Except Misuse Bool :=
  match d.number? with
  | some m => .ok (m.equal n || n.lt m)
  | none => .error (.notOrdered ">=" d.kind (number n).kind)

/-- Whether a document is a number larger than this. -/
def above (d : Document) (n : Number) : Except Misuse Bool :=
  match d.number? with
  | some m => .ok (n.lt m)
  | none => .error (.notOrdered ">" d.kind (number n).kind)

/-- The smaller of a document and a number; the document stays unless the number is smaller. -/
def smallerOf (d : Document) (n : Number) : Except Misuse Document :=
  match d.number? with
  | some m => .ok (if n.lt m then number n else d)
  | none => .error (.notOrdered "<" (number n).kind d.kind)

/-- The larger of a document and a number; the document stays unless the number is larger. -/
def largerOf (d : Document) (n : Number) : Except Misuse Document :=
  match d.number? with
  | some m => .ok (if m.lt n then number n else d)
  | none => .error (.notOrdered ">" (number n).kind d.kind)

/-- The sum of a number and a document. -/
def addedTo (d : Document) (n : Number) : Except Misuse Number :=
  match d.number? with
  | some m => n.add m
  | none => .error (.operands "+" (number n).kind d.kind)

/-- A document increased by a number. Texts and lists can be increased too, but not by a
number. -/
def increased (d : Document) (n : Number) : Except Misuse Document :=
  match d with
  | text _ | unpaired _ => .error (.notJoined .text (number n).kind)
  | list _ => .error (.notIterable (number n).kind)
  | _ =>
    match d.number? with
    | some m => return number (← m.add n)
    | none => .error (.operands "+=" d.kind (number n).kind)

/-- A document divided by one that is a number other than zero. -/
def dividedBy (d divisor : Document) : Except Misuse Binary64 :=
  match d.number?, divisor.number? with
  | some a, some b => a.quotient b
  | _, _ => .error (.operands "/" d.kind divisor.kind)

end Document

end SatLab
