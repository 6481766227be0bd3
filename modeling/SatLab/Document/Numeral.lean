import SatLab.Number.Binary64.Basic
import SatLab.Text.DecimalDigit

/-!
Numbers as documents spell them.

A number without a fraction and without a power of ten is an integer and exact, and may have at
most 4300 digits. Any other number is the nearest one of double precision.
-/

namespace SatLab

/-- What a row of digits spells. -/
inductive Numeral where
  | integer (value : Int)
  | real (value : Binary64)
  | tooLong (digits : Nat)

namespace Numeral

/-- The digits after a point, if at least one is there. -/
def fraction (chars : List Char) : List Char × List Char :=
  match chars with
  | '.' :: rest =>
    if rest.head?.any Char.isDigit then (rest.takeWhile Char.isDigit, rest.dropWhile Char.isDigit)
    else ([], chars)
  | _ => ([], chars)

/-- What follows the sign of an exponent, if it has one. -/
def withoutSign (chars : List Char) : List Char :=
  if chars.head? = some '-' ∨ chars.head? = some '+' then chars.drop 1 else chars

/-- The power of ten after a letter `e`, if at least one digit is there. -/
def powerOfTen (chars : List Char) : Option Int × List Char :=
  match chars with
  | [] => (none, chars)
  | c :: rest =>
    let digits := withoutSign rest
    if (c = 'e' ∨ c = 'E') ∧ digits.head?.any Char.isDigit then
      let value : Int := Nat.ofDigitChars 10 (digits.takeWhile Char.isDigit) 0
      (some (if rest.head? = some '-' then -value else value), digits.dropWhile Char.isDigit)
    else (none, chars)

/-- The number at the start of a text, and what follows it. Its whole part has no leading
zeros. -/
def read? (chars : List Char) : Option (Numeral × List Char) :=
  let negative := chars.head? == some '-'
  let unsigned := if negative then chars.drop 1 else chars
  match unsigned with
  | [] => none
  | c :: rest =>
    if c.isDigit then
      let whole := if c = '0' then [c] else c :: rest.takeWhile Char.isDigit
      let afterWhole := if c = '0' then rest else rest.dropWhile Char.isDigit
      let (places, afterPlaces) := fraction afterWhole
      let (power, after) := powerOfTen afterPlaces
      let numeral :=
        if places.isEmpty ∧ power.isNone then
          if integerDigitLimit < whole.length then .tooLong whole.length
          else
            let value : Int := Nat.ofDigitChars 10 whole 0
            .integer (if negative then -value else value)
        else
          .real (.ofDecimal negative (Nat.ofDigitChars 10 (whole ++ places) 0)
            (power.getD 0 - places.length))
      some (numeral, after)
    else none

theorem length_dropWhile_le (p : Char → Bool) (chars : List Char) :
    (chars.dropWhile p).length ≤ chars.length :=
  (List.dropWhile_sublist p).length_le

theorem length_fraction_le (chars : List Char) : (fraction chars).2.length ≤ chars.length := by
  unfold fraction
  split
  · rename_i rest
    have := length_dropWhile_le Char.isDigit rest
    split
    · simp only [List.length_cons]
      omega
    · exact Nat.le_refl _
  · exact Nat.le_refl _

theorem length_withoutSign_le (chars : List Char) :
    (withoutSign chars).length ≤ chars.length := by
  unfold withoutSign
  split
  · simp
  · exact Nat.le_refl _

theorem length_powerOfTen_le (chars : List Char) :
    (powerOfTen chars).2.length ≤ chars.length := by
  unfold powerOfTen
  split
  · exact Nat.le_refl _
  · rename_i c rest
    have hDigits := length_dropWhile_le Char.isDigit (withoutSign rest)
    have hSign := length_withoutSign_le rest
    simp only
    split
    · simp only [List.length_cons]
      omega
    · exact Nat.le_refl _

theorem length_of_read? {chars rest : List Char} {n : Numeral}
    (h : read? chars = some (n, rest)) : rest.length < chars.length := by
  unfold read? at h
  simp only at h
  have hUnsigned : (if (chars.head? == some '-') = true then chars.drop 1 else chars).length ≤
      chars.length := by
    split
    · simp
    · exact Nat.le_refl _
  generalize (if (chars.head? == some '-') = true then chars.drop 1 else chars) = unsigned
    at h hUnsigned
  split at h
  · cases h
  · rename_i c more
    split at h
    · obtain ⟨_, rfl⟩ := Prod.mk.inj (Option.some.inj h)
      have hWhole :
          (if c = '0' then more else more.dropWhile Char.isDigit).length ≤ more.length := by
        split
        · exact Nat.le_refl _
        · exact length_dropWhile_le _ _
      refine Nat.lt_of_le_of_lt (length_powerOfTen_le _) ?_
      refine Nat.lt_of_le_of_lt (length_fraction_le _) ?_
      simp only [List.length_cons] at hUnsigned
      omega
    · cases h

end Numeral

end SatLab
