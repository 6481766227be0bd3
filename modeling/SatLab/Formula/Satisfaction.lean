import SatLab.Formula.Basic

/-!
Truth of formulas: under a total valuation, and as it is already settled by a partial
assignment.
-/

namespace SatLab

namespace Clause

/-- A clause holds under a valuation if one of its literals does. -/
def holds (c : Clause) (v : Valuation) : Bool := c.any (·.holds v)

/-- A partial assignment satisfies a clause if it makes one of its literals true. -/
def satisfiedBy (c : Clause) (a : Assignment) : Bool := c.any fun l => l.value? a == some true

theorem holds_iff {c : Clause} {v : Valuation} :
    holds c v = true ↔ ∃ l ∈ c, l.holds v = true := by
  simp [holds]

theorem satisfiedBy_iff {c : Clause} {a : Assignment} :
    satisfiedBy c a = true ↔ ∃ l ∈ c, l.value? a = some true := by
  simp [satisfiedBy]

end Clause

namespace Formula

/-- A formula holds under a valuation if all its clauses do. -/
def holds (f : Formula) (v : Valuation) : Bool := f.all fun c => Clause.holds c v

/-- A partial assignment satisfies a formula if it satisfies every clause. -/
def satisfiedBy (f : Formula) (a : Assignment) : Bool := f.all fun c => Clause.satisfiedBy c a

/-- Some valuation makes the formula true. -/
def Satisfiable (f : Formula) : Prop := ∃ v, f.holds v = true

theorem holds_iff {f : Formula} {v : Valuation} :
    f.holds v = true ↔ ∀ c ∈ f, Clause.holds c v = true := by
  simp [holds]

theorem satisfiedBy_iff {f : Formula} {a : Assignment} :
    f.satisfiedBy a = true ↔ ∀ c ∈ f, Clause.satisfiedBy c a = true := by
  simp [satisfiedBy]

end Formula

end SatLab
