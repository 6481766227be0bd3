import SatLab.Number.Binary64.Arithmetic

/-!
The arithmetic mean, rounded once.
-/

namespace SatLab

namespace Binary64

/-- The exact sum of the finite numbers of a list, in units. -/
def totalUnits (xs : List Binary64) : Int := xs.foldr (fun x total => x.signedUnits + total) 0

/-- The sum of the numbers of a list that are not finite, if it has any. -/
def nonFiniteTotal (xs : List Binary64) : Option Binary64 :=
  match xs.filter (!·.isFinite) with
  | [] => none
  | first :: rest => some (rest.foldl (· + ·) first)

/-- The mean of a list: the exact sum of its numbers, divided by their count and rounded once.
Infinities and undefined numbers outweigh the finite ones. The empty list has no mean. -/
def mean? (xs : List Binary64) : Option Binary64 :=
  if xs.isEmpty then none
  else
    match nonFiniteTotal xs with
    | some total => some total
    | none =>
      let total := totalUnits xs
      some (ofUnits (decide (total < 0)) total.natAbs xs.length)

end Binary64

end SatLab
