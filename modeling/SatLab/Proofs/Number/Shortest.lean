import SatLab.Number.Shortest
import SatLab.Proofs.Number.Rounding

/-! The decimal chosen for a number of double precision reads back as this number. -/

namespace SatLab

/-- Every decimal that is tried has to be accepted; the exact one is only taken if none is. -/
theorem Decimal.accept_fewestDigits {num den : Nat} {accept : Decimal → Bool} {d : Decimal}
    (h : accept d = true) : accept (fewestDigits num den accept d) = true := by
  rw [fewestDigits]
  cases hFind : (List.range 17).findSome? fun places => onGrid? num den accept (places + 1) with
  | none => exact h
  | some found =>
      obtain ⟨places, -, hGrid⟩ := List.exists_of_findSome?_eq_some hFind
      exact List.find?_some hGrid

namespace Binary64

variable {units : Nat}

theorem readsBack_of_finite {sign : Bool} {h : Representable units} {d : Decimal}
    (hFinite : ofDecimal false d.digits d.exponent = .finite sign units h) :
    readsBack units d = true := by
  rw [readsBack, hFinite]
  exact decide_eq_true rfl

/-- The exact decimal of a number always reads back as it. -/
theorem readsBack_exactDecimal (h : Representable units) :
    readsBack units (exactDecimal units) = true := by
  have hExact := ofDecimal_exact false h rfl
  exact readsBack_of_finite (d := exactDecimal units) hExact

theorem ofDecimal_of_readsBack (negative : Bool) (h : Representable units) {d : Decimal}
    (hReads : readsBack units d = true) :
    ofDecimal negative d.digits d.exponent = .finite negative units h := by
  rw [readsBack] at hReads
  split at hReads
  · rename_i sign u hu hFinite
    have hUnits : u = units := of_decide_eq_true hReads
    subst hUnits
    exact ofDecimal_of_finite negative hFinite
  · exact absurd hReads Bool.false_ne_true

/-- The shortest decimal of a number is read as the number, of either sign. -/
theorem ofDecimal_shortestDecimal (negative : Bool) (h : Representable units) :
    ofDecimal negative (shortestDecimal units).digits (shortestDecimal units).exponent =
      .finite negative units h :=
  ofDecimal_of_readsBack negative h (Decimal.accept_fewestDigits (readsBack_exactDecimal h))

/-- A number other than zero has a digit other than zero. -/
theorem shortestDecimal_pos (h : Representable units) (hUnits : units ≠ 0) :
    0 < (shortestDecimal units).digits := by
  refine Nat.pos_of_ne_zero fun hZero => hUnits ?_
  have hReads := ofDecimal_shortestDecimal false h
  rw [hZero, ofDecimal, if_pos rfl, ofRatio, Nat.zero_mul,
    ofUnits_representable false ⟨overflowUnits_pos, 0, 0, Nat.zero_le _, by simp⟩] at hReads
  exact (Binary64.finite.inj hReads).2.symm

end Binary64

end SatLab
