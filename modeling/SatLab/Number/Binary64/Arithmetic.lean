import SatLab.Number.Binary64.Basic

/-!
Arithmetic and order of binary floating-point numbers. Each operation is exact arithmetic on
integers followed by one rounding.
-/

namespace SatLab

namespace Binary64

def neg : Binary64 → Binary64
  | .finite negative units h => .finite (!negative) units h
  | .infinite negative => .infinite (!negative)
  | .undefined => .undefined

/-- The exact sum rounded once. A sum of zero is positive unless both terms have the negative
sign. -/
def add : Binary64 → Binary64 → Binary64
  | .undefined, _ => .undefined
  | _, .undefined => .undefined
  | .infinite a, .infinite b => if a = b then .infinite a else .undefined
  | .infinite a, .finite .. => .infinite a
  | .finite .., .infinite b => .infinite b
  | x@(.finite a _ _), y@(.finite b _ _) =>
    let sum := x.signedUnits + y.signedUnits
    ofUnits (if sum = 0 then a && b else decide (sum < 0)) sum.natAbs 1

def sub (x y : Binary64) : Binary64 := x.add y.neg

/-- The exact product rounded once. -/
def mul : Binary64 → Binary64 → Binary64
  | .undefined, _ => .undefined
  | _, .undefined => .undefined
  | .infinite a, .infinite b => .infinite (a ^^ b)
  | .infinite a, .finite b u _ => if u = 0 then .undefined else .infinite (a ^^ b)
  | .finite a u _, .infinite b => if u = 0 then .undefined else .infinite (a ^^ b)
  | .finite a u _, .finite b v _ => ofUnits (a ^^ b) (u * v) unitsPerOne

/-- The exact quotient rounded once; a nonzero number divided by zero is infinite. -/
def div : Binary64 → Binary64 → Binary64
  | .undefined, _ => .undefined
  | _, .undefined => .undefined
  | .infinite _, .infinite _ => .undefined
  | .infinite a, .finite b _ _ => .infinite (a ^^ b)
  | .finite a _ _, .infinite b => ofUnits (a ^^ b) 0 1
  | .finite a u _, .finite b v _ =>
    if v = 0 then (if u = 0 then .undefined else .infinite (a ^^ b))
    else ofUnits (a ^^ b) (u * unitsPerOne) v

instance : Neg Binary64 := ⟨neg⟩
instance : Add Binary64 := ⟨add⟩
instance : Sub Binary64 := ⟨sub⟩
instance : Mul Binary64 := ⟨mul⟩
instance : Div Binary64 := ⟨div⟩

/-- The order of the numbers, as integers: infinities lie beyond every finite count of units.
An undefined number has no place in it. -/
def rank : Binary64 → Option Int
  | .finite negative units _ => some (if negative then -(units : Int) else units)
  | .infinite negative => some (if negative then -(overflowUnits : Int) else overflowUnits)
  | .undefined => none

/-- Whether one number is smaller; never so when one of them is undefined. -/
def lt (x y : Binary64) : Bool :=
  match x.rank, y.rank with
  | some a, some b => decide (a < b)
  | _, _ => false

/-- Numeric equality: both zeros are equal, and an undefined number equals none. -/
def equal (x y : Binary64) : Bool :=
  match x.rank, y.rank with
  | some a, some b => decide (a = b)
  | _, _ => false

/-- The smaller of two; the first one stays unless the second is smaller. -/
def smaller (x y : Binary64) : Binary64 := if lt y x then y else x

/-- The larger of two; the first one stays unless the second is larger. -/
def larger (x y : Binary64) : Binary64 := if lt x y then y else x

end Binary64

end SatLab
