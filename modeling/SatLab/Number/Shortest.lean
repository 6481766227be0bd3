import SatLab.Number.Binary64.Basic

/-!
Decimal text of a number of double precision with the fewest digits that read back.

The digits are found by trying each precision in turn: of the two neighbours of the number on
the decimal grid, one that reads back is taken, and the nearer one if both do.
-/

namespace SatLab

/-- A decimal number `digits * 10 ^ exponent`. -/
structure Decimal where
  digits : Nat
  exponent : Int
deriving DecidableEq

/-- The number of decimal digits of a natural number. -/
def digitCount (n : Nat) : Nat := (Nat.toDigits 10 n).length

/-- The least power of ten above a positive quotient `num / den`. -/
def decimalScale (num den : Nat) : Int :=
  if den ≤ num then digitCount (num / den) else 1 - digitCount ((den - 1) / num)

/-- The two integers around a quotient, the nearer one first, of two equally near the even
one. -/
def integerNeighbours (num den : Nat) : List Nat :=
  let low := num / den
  if roundHalfEven num den = low then [low, low + 1] else [low + 1, low]

/-- The first neighbour of `num / den` with the given count of digits that `accept` admits. -/
def Decimal.onGrid? (num den : Nat) (accept : Decimal → Bool) (places : Nat) : Option Decimal :=
  let exponent := decimalScale num den - places
  let neighbours :=
    if 0 ≤ exponent then integerNeighbours num (den * Nat.pow 10 exponent.toNat)
    else integerNeighbours (num * Nat.pow 10 (-exponent).toNat) den
  (neighbours.map fun digits => { digits, exponent }).find? accept

/-- The decimal with the fewest digits that `accept` admits; the exact value if no precision up
to 17 digits has one. -/
def Decimal.fewestDigits (num den : Nat) (accept : Decimal → Bool) (exact : Decimal) : Decimal :=
  ((List.range 17).findSome? fun places => onGrid? num den accept (places + 1)).getD exact

namespace Binary64

/-- Whether a decimal reads back as the positive number of `units` units. -/
def readsBack (units : Nat) (d : Decimal) : Bool :=
  match ofDecimal false d.digits d.exponent with
  | .finite _ u _ => u = units
  | _ => false

/-- The value of `units` units with all its digits. -/
def exactDecimal (units : Nat) : Decimal :=
  { digits := units * Nat.pow 5 1074, exponent := -1074 }

/-- The fewest digits that read back as the positive number of `units` units. -/
def shortestDecimal (units : Nat) : Decimal :=
  let common := Nat.gcd units unitsPerOne
  Decimal.fewestDigits (units / common) (unitsPerOne / common) (readsBack units)
    (exactDecimal units)

end Binary64

/-- An exponent as text: a sign and at least two digits. -/
def exponentText (exponent : Int) : List Char :=
  (if exponent < 0 then '-' else '+') :: (Nat.toDigits 10 exponent.natAbs).leftpad 2 '0'

/-- A positive decimal as text. The point stands among the digits, or with zeros added beside
them, when the first digit has a weight from `10 ^ -4` to `10 ^ 15`; otherwise the first digit
is followed by the fraction and a power of ten. -/
def Decimal.text (d : Decimal) : List Char :=
  let written := Nat.toDigits 10 d.digits
  let digits := (written.reverse.dropWhile (· == '0')).reverse
  let point : Int := d.exponent + written.length
  if -4 < point ∧ point ≤ 16 then
    if point ≤ 0 then '0' :: '.' :: (List.replicate (-point).toNat '0' ++ digits)
    else
      let whole := digits.take point.toNat
      let fraction := digits.drop point.toNat
      whole.rightpad point.toNat '0' ++ '.' :: (if fraction.isEmpty then ['0'] else fraction)
  else
    let fraction := digits.drop 1
    digits.take 1 ++ (if fraction.isEmpty then [] else '.' :: fraction) ++
      'e' :: exponentText (point - 1)

/-- The shortest text of a number that reads back as the same number, with at least one digit
after the point unless a power of ten is written. -/
def Binary64.text : Binary64 → String
  | .undefined => "nan"
  | .infinite negative => if negative then "-inf" else "inf"
  | .finite negative units _ =>
    let magnitude :=
      if units = 0 then ['0', '.', '0'] else (Binary64.shortestDecimal units).text
    String.ofList (if negative then '-' :: magnitude else magnitude)

end SatLab
