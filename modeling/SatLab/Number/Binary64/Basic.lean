/-!
Binary floating-point numbers of double precision, kept as exact integers.

Every finite number of the format is an integral multiple of `2 ^ -1074`, its smallest positive
value, so a finite number is a sign and a count of these units. Any other quotient is rounded to
the nearest of these numbers, a half to the even neighbour.
-/

namespace SatLab

/-- The quotient rounded to the nearest integer, a half to the even one. -/
def roundHalfEven (num den : Nat) : Nat :=
  let q := num / den
  let r := num % den
  if 2 * r < den ∨ (2 * r = den ∧ q % 2 = 0) then q else q + 1

theorem roundHalfEven_le {num den bound : Nat} (hDen : 0 < den) (hNum : num < den * bound) :
    roundHalfEven num den ≤ bound := by
  have hQuotient : num / den < bound := by
    rw [Nat.div_lt_iff_lt_mul hDen, Nat.mul_comm]
    exact hNum
  simp only [roundHalfEven]
  split <;> omega

namespace Binary64

/-- The number of units in one: the smallest positive value is `2 ^ -1074`. -/
def unitsPerOne : Nat := Nat.pow 2 1074

/-- The first count of units beyond the finite numbers. -/
def overflowUnits : Nat := Nat.pow 2 2098

theorem overflowUnits_pos : 0 < overflowUnits := by
  unfold overflowUnits
  apply Nat.pow_pos
  decide

/-- A count of units that has at most 53 significant bits and is in range. -/
def Representable (units : Nat) : Prop :=
  units < overflowUnits ∧ ∃ significand exponent, significand ≤ Nat.pow 2 53 ∧
    units = significand * Nat.pow 2 exponent

/-- The multiple of a power of two with at most 53 significant bits that is nearest to the
quotient, before the range is looked at. -/
def roundSignificand (num den : Nat) : Nat :=
  let exponent := (num / den).log2 - 52
  roundHalfEven num (den * Nat.pow 2 exponent) * Nat.pow 2 exponent

theorem exists_significand_roundSignificand (num : Nat) {den : Nat} (hDen : 0 < den) :
    ∃ significand exponent, significand ≤ Nat.pow 2 53 ∧
      roundSignificand num den = significand * Nat.pow 2 exponent := by
  refine ⟨_, _, roundHalfEven_le (Nat.mul_pos hDen (Nat.two_pow_pos _)) ?_, rfl⟩
  have hLog : num / den < 2 ^ ((num / den).log2 + 1) := Nat.lt_log2_self
  have hPow : 2 ^ ((num / den).log2 + 1) ≤ 2 ^ ((num / den).log2 - 52) * 2 ^ 53 := by
    rw [← Nat.pow_add]
    exact Nat.pow_le_pow_right (by decide) (by omega)
  have hDiv : num / den < 2 ^ ((num / den).log2 - 52) * 2 ^ 53 := Nat.lt_of_lt_of_le hLog hPow
  rw [Nat.div_lt_iff_lt_mul hDen, Nat.mul_comm] at hDiv
  rw [Nat.mul_assoc]
  exact hDiv

end Binary64

/-- A number of double precision: a sign with a count of units of `2 ^ -1074`, an infinity, or
the result of an undefined operation. Zero has both signs. -/
inductive Binary64 where
  | finite (negative : Bool) (units : Nat) (representable : Binary64.Representable units)
  | infinite (negative : Bool)
  | undefined

namespace Binary64

/-- Zero with the positive sign. -/
def zero : Binary64 :=
  .finite false 0 ⟨overflowUnits_pos, 0, 0, Nat.zero_le _, (Nat.zero_mul _).symm⟩

instance : Inhabited Binary64 := ⟨zero⟩

instance : DecidableEq Binary64
  | .finite n u _, .finite n' u' _ =>
    if h : n = n' ∧ u = u' then .isTrue (by obtain ⟨rfl, rfl⟩ := h; rfl)
    else .isFalse (by rintro ⟨⟩; exact h ⟨rfl, rfl⟩)
  | .infinite n, .infinite n' =>
    if h : n = n' then .isTrue (by rw [h]) else .isFalse (by rintro ⟨⟩; exact h rfl)
  | .undefined, .undefined => .isTrue rfl
  | .finite .., .infinite _ => .isFalse nofun
  | .finite .., .undefined => .isFalse nofun
  | .infinite _, .finite .. => .isFalse nofun
  | .infinite _, .undefined => .isFalse nofun
  | .undefined, .finite .. => .isFalse nofun
  | .undefined, .infinite _ => .isFalse nofun

/-- The number nearest to `num / den` units, with the given sign; beyond the range it is
infinite. -/
def ofUnits (negative : Bool) (num den : Nat) : Binary64 :=
  if hDen : 0 < den then
    if hRange : roundSignificand num den < overflowUnits then
      .finite negative (roundSignificand num den)
        ⟨hRange, exists_significand_roundSignificand num hDen⟩
    else .infinite negative
  else .undefined

/-- The number nearest to a quotient of natural numbers, with the given sign. -/
def ofRatio (negative : Bool) (num den : Nat) : Binary64 :=
  ofUnits negative (num * unitsPerOne) den

/-- The number nearest to an integer. -/
def ofInt (n : Int) : Binary64 :=
  ofRatio (decide (n < 0)) n.natAbs 1

/-- The number nearest to `digits * 10 ^ exponent`. Exponents far beyond the range are settled
by the number of digits alone, so that no huge power is formed. -/
def ofDecimal (negative : Bool) (digits : Nat) (exponent : Int) : Binary64 :=
  if digits = 0 then ofRatio negative 0 1
  else if 400 < exponent then .infinite negative
  else if exponent < -(400 + digits.log2) then ofRatio negative 0 1
  else if 0 ≤ exponent then ofRatio negative (digits * Nat.pow 10 exponent.toNat) 1
  else ofRatio negative digits (Nat.pow 10 (-exponent).toNat)

def isFinite : Binary64 → Bool
  | .finite .. => true
  | _ => false

def isUndefined : Binary64 → Bool
  | .undefined => true
  | _ => false

/-- The signed count of units of a finite number. -/
def signedUnits : Binary64 → Int
  | .finite negative units _ => if negative then -(units : Int) else units
  | _ => 0

end Binary64

end SatLab
