import SatLab.Number.Binary64.Arithmetic

/-!
Numbers in cells.

An integer is exact and has to fit into 64 bits. Any other number is read with a rounding after
every digit: at most seventeen digits count, leading zeros among them, and the result is
multiplied or divided by a power of ten that is rounded itself. The exponent is a word of 32 bits.
-/

namespace SatLab

namespace Sheet

/-- The blanks around a number. -/
def isNumberBlank (c : Char) : Bool := c == ' ' || decide ('\t' ≤ c ∧ c ≤ '\r')

/-- A sign in front, if there is one, and what follows. -/
def splitSign : List Char → Bool × List Char
  | '-' :: rest => (true, rest)
  | '+' :: rest => (false, rest)
  | text => (false, text)

/-- How a cell reads as an integer within bounds. -/
inductive IntegerReading where
  | value (n : Int)
  | outside
  | none
deriving DecidableEq

/-- Reads an integer. One that is out of bounds is noticed before what follows its digits. -/
def readInteger (low high : Int) (cell : List Char) : IntegerReading :=
  let (negative, rest) := splitSign (cell.dropWhile isNumberBlank)
  let digits := rest.takeWhile Char.isDigit
  if digits.isEmpty then .none
  else
    let magnitude : Int := Nat.ofDigitChars 10 digits 0
    let n := if negative then -magnitude else magnitude
    if n < low ∨ high < n then .outside
    else if ((rest.dropWhile Char.isDigit).dropWhile isNumberBlank).isEmpty then .value n
    else .none

/-- The digits that count. -/
def digitLimit : Nat := 17

/-- Digits appended to a number, with a rounding after each. -/
def appendDigits (x : Binary64) (digits : List Char) : Binary64 :=
  digits.foldl (fun x c => x * .ofInt 10 + .ofInt (c.toNat - '0'.toNat : Nat)) x

/-- A power of ten, rounded. -/
def powerOfTen (n : Nat) : Binary64 := .ofRatio false (Nat.pow 10 n) 1

/-- The largest power of ten that is used. -/
def powerLimit : Nat := 308

/-- A number times a power of ten; none if it is too large. -/
def scaled? (x : Binary64) (exponent : Int) : Option Binary64 :=
  let y :=
    if powerLimit < exponent then .infinite false
    else if 0 < exponent then x * powerOfTen exponent.toNat
    else if exponent < -(2 * powerLimit) then .zero
    else if exponent < -powerLimit then
      x / powerOfTen (-exponent - powerLimit).toNat / powerOfTen powerLimit
    else x / powerOfTen (-exponent).toNat
  if y.isFinite then some y else none

/-- The exponent behind a number and what follows it. An exponent without digits is none. -/
def splitExponent (text : List Char) : Int32 × List Char :=
  match text with
  | c :: rest =>
    if c = 'e' ∨ c = 'E' then
      let (negative, rest') := splitSign rest
      let digits := (rest'.takeWhile Char.isDigit).take digitLimit
      if digits.isEmpty then (0, text)
      else
        let n : Int32 := .ofNat (Nat.ofDigitChars 10 digits 0)
        (if negative then -n else n, rest'.drop digits.length)
    else (0, text)
  | [] => (0, [])

/-- A point and the digits behind it, and what follows them. -/
def splitFraction (text : List Char) : List Char × List Char :=
  match text with
  | '.' :: rest => (rest.takeWhile Char.isDigit, rest.dropWhile Char.isDigit)
  | _ => ([], text)

/-- Reads a number written in digits. -/
def readDecimal? (cell : List Char) : Option Binary64 :=
  let (negative, text) := splitSign (cell.dropWhile isNumberBlank)
  let whole := text.takeWhile Char.isDigit
  let (fraction, rest) := splitFraction (text.dropWhile Char.isDigit)
  let wholeTaken := whole.take digitLimit
  let fractionTaken := fraction.take (digitLimit - wholeTaken.length)
  if wholeTaken.isEmpty && fractionTaken.isEmpty then none
  else
    let x := appendDigits .zero (wholeTaken ++ fractionTaken)
    let (exponent, rest) := splitExponent rest
    if (rest.dropWhile isNumberBlank).isEmpty then
      let places : Int32 := .ofNat (whole.length - wholeTaken.length) - .ofNat fractionTaken.length
      scaled? (if negative then -x else x) (places + exponent).toInt
    else none

/-- A text in small ASCII letters. -/
def smallLetters (text : List Char) : List Char := text.map Char.toLower

/-- Reads an infinity. -/
def readInfinity? (cell : List Char) : Option Binary64 :=
  let (negative, name) := splitSign cell
  if smallLetters name = "inf".toList ∨ smallLetters name = "infinity".toList then
    some (.infinite negative)
  else none

/-- Reads a number. -/
def readReal? (cell : List Char) : Option Binary64 :=
  match readDecimal? cell with
  | some x => some x
  | none => readInfinity? cell

end Sheet

end SatLab
