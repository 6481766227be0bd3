import Mathlib.Data.List.Perm.Basic
import SatLab.Proofs.Formula.Residual

/-! Formulas up to the order of clauses, and of literals in a clause. What an assignment leaves of a
clause depends on that clause alone, so simplification respects this order. -/

namespace SatLab

namespace Clause

variable {c d : Clause} {a : Assignment}

theorem satisfiedBy_perm (h : c.Perm d) : satisfiedBy c a = satisfiedBy d a := h.any_eq

/-- What is left of a reordered clause is reordered. -/
theorem residual_perm (h : c.Perm d) : (residual c a).Perm (residual d a) := h.filter _

end Clause

namespace Formula

/-- Every clause of the one formula is a clause of the other, with its literals in some order. -/
def Among (f g : Formula) : Prop := ∀ c ∈ f, ∃ d ∈ g, c.Perm d

/-- The same clauses in some order, each with its literals in some order. -/
def Reordered (f g : Formula) : Prop := ∃ h : Formula, f.Perm h ∧ List.Forall₂ List.Perm h g

variable {f g : Formula} {a : Assignment}

/-- Every clause of a formula is, up to order, among the clauses of a reordered one. -/
theorem Reordered.among (h : f.Reordered g) : f.Among g := by
  obtain ⟨k, hClauses, hLiterals⟩ := h
  intro c hMem
  obtain ⟨i, hi, rfl⟩ := List.getElem_of_mem (hClauses.mem_iff.1 hMem)
  have hLength := hLiterals.length_eq
  exact ⟨g[i], List.getElem_mem _, hLiterals.get hi (hLength ▸ hi)⟩

theorem Reordered.symm (h : f.Reordered g) : g.Reordered f := by
  obtain ⟨k, hClauses, hLiterals⟩ := h
  obtain ⟨m, hLeft, hRight⟩ := List.perm_comp_forall₂ hClauses hLiterals
  exact ⟨m, hRight.symm, (hLeft.imp fun _ _ hPerm => hPerm.symm).flip⟩

/-- The clauses that an assignment does not satisfy, with the literals it leaves open. -/
def openClauses (f : Formula) (a : Assignment) : Formula :=
  (f.filter fun c => !Clause.satisfiedBy c a).map (Clause.residual · a)

/-- The open clauses are what is left of the clauses not yet satisfied. -/
theorem mem_openClauses {d : Clause} : d ∈ f.openClauses a ↔
    ∃ c ∈ f, Clause.satisfiedBy c a = false ∧ Clause.residual c a = d := by
  simp only [openClauses, List.mem_map, List.mem_filter, Bool.not_eq_true', and_assoc]

/-- Simplification stops at a clause of which nothing is left, and otherwise keeps all that are
open. -/
theorem simplify_eq_openClauses (f : Formula) (a : Assignment) :
    f.simplify a = if [] ∈ f.openClauses a then none else some (f.openClauses a) := by
  induction f with
  | nil => rfl
  | cons c f ih =>
      by_cases hSatisfied : Clause.satisfiedBy c a = true
      · have hSame : openClauses (c :: f) a = openClauses f a := by simp [openClauses, hSatisfied]
        rw [simplify_cons_of_satisfied hSatisfied, ih, hSame]
      · have hFirst : openClauses (c :: f) a = Clause.residual c a :: openClauses f a := by
          simp [openClauses, hSatisfied]
        by_cases hNil : Clause.residual c a = []
        · rw [simplify_cons_of_contradicted hSatisfied hNil, hFirst, hNil,
            if_pos List.mem_cons_self]
        · have hMem : [] ∈ openClauses (c :: f) a ↔ [] ∈ openClauses f a := by
            rw [hFirst, List.mem_cons]
            exact or_iff_right fun h => hNil h.symm
          rw [simplify_cons_of_open hSatisfied hNil, ih]
          simp only [hMem]
          split
          · rfl
          · rw [hFirst]
            rfl

/-- A formula that simplifies, simplifies to its open clauses. -/
theorem eq_openClauses_of_simplify (h : f.simplify a = some g) : g = f.openClauses a := by
  rw [simplify_eq_openClauses] at h
  split at h
  · cases h
  · exact (Option.some.inj h).symm

/-- The open clauses of a reordered formula are reordered. -/
theorem Reordered.openClauses (h : f.Reordered g) (a : Assignment) :
    (f.openClauses a).Reordered (g.openClauses a) := by
  obtain ⟨k, hClauses, hLiterals⟩ := h
  refine ⟨k.openClauses a, (hClauses.filter _).map _, ?_⟩
  have hOpen : List.Forall₂ List.Perm (k.filter fun c => !Clause.satisfiedBy c a)
      (g.filter fun c => !Clause.satisfiedBy c a) := by
    apply List.rel_filter _ hLiterals
    intro c d hPerm
    simp only [Clause.satisfiedBy_perm hPerm]
  exact List.rel_map (fun _ _ hPerm => Clause.residual_perm hPerm) hOpen

end Formula

end SatLab
