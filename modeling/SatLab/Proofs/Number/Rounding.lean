import Mathlib.Algebra.Order.Ring.Nat
import Mathlib.Tactic.SplitIfs
import SatLab.Number.Binary64.Basic

/-! Rounding to double precision depends only on the value of a quotient, not on how it is
written, and leaves a number alone that is one of double precision already. So a decimal numeral
stands for one number however its zeros and its power of ten are chosen. -/

namespace SatLab

/-- Rounding depends on the quotient only, not on how it is written. -/
theorem roundHalfEven_mul_left (num den : Nat) {k : Nat} (hk : 0 < k) :
    roundHalfEven (k * num) (k * den) = roundHalfEven num den := by
  have hLess : 2 * (k * (num % den)) < k * den ↔ 2 * (num % den) < den := by
    rw [Nat.mul_left_comm, Nat.mul_lt_mul_left hk]
  have hHalf : 2 * (k * (num % den)) = k * den ↔ 2 * (num % den) = den := by
    rw [Nat.mul_left_comm, Nat.mul_right_inj hk.ne']
  simp only [roundHalfEven, Nat.mul_div_mul_left num den hk, Nat.mul_mod_mul_left, hLess, hHalf]

/-- A whole quotient is not rounded. -/
theorem roundHalfEven_of_dvd {num den : Nat} (hDen : 0 < den) (h : den ∣ num) :
    roundHalfEven num den = num / den := by
  have hZero : 2 * (num % den) < den := by
    rw [Nat.mod_eq_zero_of_dvd h]
    exact hDen
  simp only [roundHalfEven, hZero, true_or, if_true]

/-- Rounding never goes below the whole part. -/
theorem div_le_roundHalfEven (num den : Nat) : num / den ≤ roundHalfEven num den := by
  simp only [roundHalfEven]
  split <;> omega

/-- Less than a half is rounded to zero. -/
theorem roundHalfEven_eq_zero {num den : Nat} (h : 2 * num < den) : roundHalfEven num den = 0 := by
  have hLt : num < den := by omega
  simp [roundHalfEven, Nat.div_eq_of_lt hLt, Nat.mod_eq_of_lt hLt, h]

/-! The powers of the format are too large to be computed: they are compared by their exponents. -/

theorem two_pow_add_eq {a b c : Nat} (h : a + b = c) : Nat.pow 2 c = Nat.pow 2 a * Nat.pow 2 b := by
  subst h
  exact Nat.pow_add 2 a b

theorem ten_pow_eq (k : Nat) : 10 ^ k = 5 ^ k * Nat.pow 2 k := Nat.mul_pow 5 2 k

theorem ten_pow_le_two_pow (n : Nat) : 10 ^ n ≤ Nat.pow 2 (4 * n) := by
  rw [Nat.pow_eq, Nat.pow_mul]
  exact Nat.pow_le_pow_left (by decide) n

theorem two_pow_le_ten_pow {m n : Nat} (h : m ≤ 3 * n) : Nat.pow 2 m ≤ 10 ^ n := by
  refine Nat.le_trans (Nat.pow_le_pow_right (by decide) h) ?_
  rw [Nat.pow_mul]
  exact Nat.pow_le_pow_left (by decide) n

namespace Binary64

theorem unitsPerOne_le : unitsPerOne ≤ 10 ^ 358 := by
  unfold unitsPerOne
  apply two_pow_le_ten_pow
  decide

theorem overflowUnits_eq : overflowUnits = Nat.pow 2 1024 * unitsPerOne := by
  rw [overflowUnits, unitsPerOne, two_pow_add_eq (a := 1024) (b := 1074) (c := 2098) rfl]

theorem overflowUnits_le : overflowUnits ≤ 10 ^ 342 * unitsPerOne := by
  rw [overflowUnits_eq]
  apply Nat.mul_le_mul_right
  apply two_pow_le_ten_pow
  decide

/-- The significand depends on the quotient only. -/
theorem roundSignificand_mul_left (num den : Nat) {k : Nat} (hk : 0 < k) :
    roundSignificand (k * num) (k * den) = roundSignificand num den := by
  simp only [roundSignificand, Nat.mul_div_mul_left num den hk, Nat.mul_assoc,
    roundHalfEven_mul_left num _ hk]

/-- A quotient has at most as many bits as the number it is rounded to. -/
theorem two_pow_log2_le_roundSignificand {num den : Nat} (h : num / den ≠ 0) :
    2 ^ (num / den).log2 ≤ roundSignificand num den := by
  have hSplit : 2 ^ (num / den).log2 =
      2 ^ ((num / den).log2 - ((num / den).log2 - 52)) * 2 ^ ((num / den).log2 - 52) := by
    rw [← Nat.pow_add]
    congr 1
    omega
  rw [roundSignificand, hSplit]
  refine Nat.mul_le_mul_right _ (Nat.le_trans ?_ (div_le_roundHalfEven num _))
  rw [← Nat.div_div_eq_div_mul]
  refine (Nat.le_div_iff_mul_le (Nat.two_pow_pos _)).2 ?_
  rw [← hSplit]
  exact Nat.log2_self_le h

/-- Rounding does not go beyond twice the quotient. -/
theorem roundSignificand_le (num den : Nat) : roundSignificand num den ≤ 2 * (num / den) + 1 := by
  have hNearest : ∀ den, roundHalfEven num den ≤ num / den + 1 := by
    intro den
    simp only [roundHalfEven]
    split <;> omega
  have hPower : 2 ^ ((num / den).log2 - 52) ≤ num / den + 1 := by
    rcases Nat.eq_zero_or_pos (num / den) with hZero | hPos
    · rw [hZero]
      decide
    · refine Nat.le_trans (Nat.pow_le_pow_right (by decide) (Nat.sub_le _ _)) ?_
      exact Nat.le_trans (Nat.log2_self_le hPos.ne') (Nat.le_succ _)
  have hDown := Nat.div_mul_le_self (num / den) (2 ^ ((num / den).log2 - 52))
  have hProduct := Nat.mul_le_mul_right (2 ^ ((num / den).log2 - 52))
    (hNearest (den * 2 ^ ((num / den).log2 - 52)))
  rw [← Nat.div_div_eq_div_mul, Nat.add_mul, Nat.one_mul] at hProduct
  rw [roundSignificand, Nat.pow_eq]
  omega

/-- Less than half a unit is rounded to zero. -/
theorem roundSignificand_eq_zero {num den : Nat} (h : 2 * num < den) :
    roundSignificand num den = 0 := by
  have hZero : num / den = 0 := Nat.div_eq_of_lt (by omega)
  simp [roundSignificand, hZero, roundHalfEven_eq_zero h]

/-- The bits of a number of double precision all fit above the last place of its rounding. -/
theorem two_pow_dvd_of_significand {s e : Nat} (h : s ≤ 2 ^ 53) :
    2 ^ ((s * 2 ^ e).log2 - 52) ∣ s * 2 ^ e := by
  rcases Nat.eq_zero_or_pos s with hZero | hPos
  · simp [hZero]
  have hProduct : s * 2 ^ e ≠ 0 := (Nat.mul_pos hPos (Nat.two_pow_pos e)).ne'
  have hLog : (s * 2 ^ e).log2 ≤ s.log2 + e := by
    refine Nat.le_of_lt_succ ((Nat.log2_lt hProduct).2 ?_)
    rw [← Nat.succ_add, Nat.pow_add]
    exact Nat.mul_lt_mul_of_pos_right Nat.lt_log2_self (Nat.two_pow_pos e)
  rcases Nat.lt_or_eq_of_le h with hLt | hEq
  · have hSmall : s.log2 ≤ 52 := Nat.le_of_lt_succ ((Nat.log2_lt hPos.ne').2 hLt)
    exact Dvd.dvd.mul_left (Nat.pow_dvd_pow 2 (by omega)) s
  · rw [hEq, ← Nat.pow_add]
    refine Nat.pow_dvd_pow 2 (Nat.le_trans (Nat.sub_le _ _) ?_)
    rw [Nat.log2_two_pow]

/-- What is representable is not rounded. -/
theorem roundSignificand_representable {units : Nat} (h : Representable units) :
    roundSignificand units 1 = units := by
  obtain ⟨-, s, e, hs, rfl⟩ := h
  have hDvd : 2 ^ ((s * 2 ^ e).log2 - 52) ∣ s * 2 ^ e := two_pow_dvd_of_significand hs
  simp only [roundSignificand, Nat.div_one, Nat.one_mul, Nat.pow_eq]
  rw [roundHalfEven_of_dvd (Nat.two_pow_pos _) hDvd, Nat.div_mul_cancel hDvd]

variable (negative : Bool)

/-- Quotients with one significand are the same number. -/
theorem ofUnits_congr {a b c d : Nat} (hDen : 0 < b ↔ 0 < d)
    (h : roundSignificand a b = roundSignificand c d) :
    ofUnits negative a b = ofUnits negative c d := by
  simp only [ofUnits, hDen, h]

/-- A representable count of units is that number. -/
theorem ofUnits_representable {units : Nat} (h : Representable units) :
    ofUnits negative units 1 = .finite negative units h := by
  have hRound := roundSignificand_representable h
  simp only [ofUnits, Nat.one_pos, hRound, h.1, dif_pos]

/-- From the bound on, numbers are infinite. -/
theorem ofUnits_of_large {num den : Nat} (hDen : 0 < den) (h : overflowUnits * den ≤ num) :
    ofUnits negative num den = .infinite negative := by
  have hQuotient : overflowUnits ≤ num / den := (Nat.le_div_iff_mul_le hDen).2 h
  have hPos : num / den ≠ 0 := by
    have := overflowUnits_pos
    omega
  have hLog : 2098 ≤ (num / den).log2 := (Nat.le_log2 hPos).2 hQuotient
  have hRound : overflowUnits ≤ roundSignificand num den :=
    Nat.le_trans (Nat.pow_le_pow_right (by decide) hLog) (two_pow_log2_le_roundSignificand hPos)
  simp only [ofUnits, hDen, Nat.not_lt.2 hRound, dif_pos, dif_neg, not_false_eq_true]

/-- A quotient far below the range is finite. -/
theorem isFinite_ofRatio {num den : Nat} (hDen : 0 < den) (h : num ≤ 10 ^ 200 * den) :
    (ofRatio negative num den).isFinite = true := by
  have hUnits : 0 < unitsPerOne := Nat.two_pow_pos 1074
  have hQuotient : num * unitsPerOne / den ≤ 10 ^ 200 * unitsPerOne := by
    refine Nat.div_le_of_le_mul ?_
    rw [← Nat.mul_assoc, Nat.mul_comm den]
    exact Nat.mul_le_mul_right _ h
  have hRange : (2 * 10 ^ 200 + 1) * unitsPerOne < overflowUnits := by
    have hTen := ten_pow_le_two_pow 200
    have hPos : 0 < Nat.pow 2 (4 * 200) := Nat.two_pow_pos _
    have hFour : Nat.pow 2 (4 * 200) * 4 ≤ Nat.pow 2 1024 := by
      rw [two_pow_add_eq (a := 4 * 200) (b := 224) (c := 1024) rfl]
      exact Nat.mul_le_mul_left _ (by decide)
    rw [overflowUnits_eq]
    refine Nat.mul_lt_mul_of_pos_right (Nat.lt_of_lt_of_le ?_ hFour) hUnits
    omega
  have hRound : roundSignificand (num * unitsPerOne) den < overflowUnits := by
    refine Nat.lt_of_le_of_lt (roundSignificand_le _ den) (Nat.lt_of_le_of_lt ?_ hRange)
    rw [Nat.add_mul, Nat.one_mul, Nat.mul_assoc]
    omega
  simp only [ofRatio, ofUnits, hDen, hRound, dif_pos, isFinite]

/-- Less than half a unit is zero, with its sign. -/
theorem ofUnits_of_small {num den : Nat} (h : 2 * num < den) :
    ofUnits negative num den = ofUnits negative 0 1 := by
  refine ofUnits_congr negative (by omega) ?_
  rw [roundSignificand_eq_zero h, roundSignificand_eq_zero (by decide)]

/-- Equal quotients round to the same number. -/
theorem ofRatio_congr {a b c d : Nat} (hb : 0 < b) (hd : 0 < d) (h : a * d = c * b) :
    ofRatio negative a b = ofRatio negative c d := by
  refine ofUnits_congr negative (iff_of_true hb hd) ?_
  have hLeft := roundSignificand_mul_left (a * unitsPerOne) b hd
  have hRight := roundSignificand_mul_left (c * unitsPerOne) d hb
  have hNum : d * (a * unitsPerOne) = b * (c * unitsPerOne) := by
    rw [← Nat.mul_assoc, ← Nat.mul_assoc, Nat.mul_comm d, Nat.mul_comm b, h]
  rw [← hLeft, ← hRight, hNum, Nat.mul_comm d b]

/-- The shortcuts for exponents far beyond the range agree with rounding the power. -/
theorem ofDecimal_eq_ofRatio (digits : Nat) (exponent : Int) :
    ofDecimal negative digits exponent =
      ofRatio negative (digits * 10 ^ exponent.toNat) (10 ^ (-exponent).toNat) := by
  have hTen : ∀ k, 0 < 10 ^ k := fun k => Nat.pow_pos (by decide)
  unfold ofDecimal
  split_ifs with hZero hLarge hSmall hSign
  · exact ofRatio_congr negative Nat.one_pos (hTen _) (by simp [hZero])
  · have hDen : (-exponent).toNat = 0 := by omega
    have hPower : 10 ^ 401 ≤ digits * 10 ^ exponent.toNat :=
      Nat.le_trans (Nat.pow_le_pow_right (by decide) (by omega))
        (Nat.le_mul_of_pos_left _ (Nat.pos_of_ne_zero hZero))
    have hBound : overflowUnits ≤ 10 ^ 401 * unitsPerOne :=
      Nat.le_trans overflowUnits_le
        (Nat.mul_le_mul_right _ (Nat.pow_le_pow_right (by decide) (by decide)))
    rw [hDen, Nat.pow_zero]
    refine (ofUnits_of_large negative Nat.one_pos ?_).symm
    rw [Nat.mul_one]
    exact Nat.le_trans hBound (Nat.mul_le_mul_right _ hPower)
  · have hNum : exponent.toNat = 0 := by omega
    have hLog : 2 * digits < 10 ^ (digits.log2 + 2) := by
      refine Nat.lt_of_lt_of_le ?_ (two_pow_le_ten_pow (m := digits.log2 + 2) (by omega))
      rw [Nat.pow_eq, Nat.pow_succ']
      exact Nat.mul_lt_mul_of_pos_left Nat.lt_log2_self (by decide)
    have hPower : 2 * (digits * unitsPerOne) < 10 ^ (-exponent).toNat := by
      rw [← Nat.mul_assoc]
      refine Nat.lt_of_lt_of_le (Nat.mul_lt_mul_of_lt_of_le hLog unitsPerOne_le (hTen _)) ?_
      rw [← Nat.pow_add]
      exact Nat.pow_le_pow_right (by decide) (by omega)
    rw [hNum, Nat.pow_zero, Nat.mul_one]
    refine ((ofUnits_of_small negative hPower).trans ?_).symm
    rw [ofRatio, Nat.zero_mul]
  · have hDen : (-exponent).toNat = 0 := by omega
    rw [hDen]
    rfl
  · have hNum : exponent.toNat = 0 := by omega
    rw [hNum, Nat.pow_zero, Nat.mul_one]
    rfl

/-- Zeros at the end of the digits only shift the exponent. -/
theorem ofDecimal_shift (digits k : Nat) (exponent : Int) :
    ofDecimal negative (digits * 10 ^ k) (exponent - k) = ofDecimal negative digits exponent := by
  have hTen : ∀ k, 0 < 10 ^ k := fun k => Nat.pow_pos (by decide)
  rw [ofDecimal_eq_ofRatio, ofDecimal_eq_ofRatio]
  refine ofRatio_congr negative (hTen _) (hTen _) ?_
  simp only [Nat.mul_assoc, ← Nat.pow_add]
  congr 2
  omega

/-- Rounding does not look at the sign. -/
theorem ofDecimal_of_finite {digits units : Nat} {exponent : Int} {sign : Bool}
    {h : Representable units} (hFinite : ofDecimal false digits exponent = .finite sign units h) :
    ofDecimal negative digits exponent = .finite negative units h := by
  rw [ofDecimal_eq_ofRatio, ofRatio, ofUnits] at hFinite ⊢
  split_ifs at hFinite ⊢ with hDen hRange
  obtain ⟨-, rfl⟩ := Binary64.finite.inj hFinite
  rfl

/-- The exact decimal expansion of a number reads back. -/
theorem ofDecimal_exact {units k : Nat} (h : Representable units)
    (hk : unitsPerOne = Nat.pow 2 k) :
    ofDecimal negative (units * Nat.pow 5 k) (-k) = .finite negative units h := by
  have hDown : (-k : Int).toNat = 0 := by omega
  have hUp : (- -k : Int).toNat = k := by omega
  rw [ofDecimal_eq_ofRatio, ofRatio, ← ofUnits_representable negative h]
  refine ofUnits_congr negative (iff_of_true (Nat.pow_pos (by decide)) Nat.one_pos) ?_
  rw [← roundSignificand_mul_left units 1 (k := 10 ^ k) (Nat.pow_pos (by decide)), hDown, hUp,
    Nat.pow_zero, Nat.mul_one, Nat.mul_one, Nat.mul_assoc, hk, ten_pow_eq, Nat.pow_eq,
    Nat.mul_comm units]

end Binary64

end SatLab
