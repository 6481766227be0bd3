import SatLab.Number.Binary64.Basic

/-!
Decimal text with a set number of places.
-/

namespace SatLab

/-- The quotient `num / den` with the given number of places, the last one rounded to nearest, a
half to the even digit. -/
def fixedQuotient (places num den : Nat) : List Char :=
  let scaled := roundHalfEven (num * Nat.pow 10 places) den
  Nat.toDigits 10 (scaled / Nat.pow 10 places) ++
    (if places = 0 then []
      else '.' :: (Nat.toDigits 10 (scaled % Nat.pow 10 places)).leftpad places '0')

/-- A number with the given number of places. The exact value is rounded, and a negative number
keeps its sign also where all its places are zero. -/
def Binary64.fixed (places : Nat) : Binary64 → String
  | .undefined => "nan"
  | .infinite negative => if negative then "-inf" else "inf"
  | .finite negative units _ =>
    let magnitude := fixedQuotient places units Binary64.unitsPerOne
    String.ofList (if negative then '-' :: magnitude else magnitude)

end SatLab
