import SatLab.Proofs.Search.TruthTable

/-! Both solvers answer the same question. An answer that fits the formula says whether the formula
is satisfiable, so two such answers can differ in the model alone. -/

namespace SatLab

namespace Formula

/-- What an answer has to be worth. A model names variables of the formula only. -/
def Verdict (f : Formula) : Option Assignment → Prop
  | some model => f.satisfiedBy model = true ∧ ∀ name ∈ model, name ∈ f.occurrences
  | none => ¬f.Satisfiable

variable {f : Formula}

theorem satisfiable_of_satisfiedBy {a : Assignment} (h : f.satisfiedBy a = true) :
    f.Satisfiable := by
  obtain ⟨v, hv⟩ := a.exists_agrees
  have hTrue := (satisfiedBy_iff_trueUnder.1 h).mono (Assignment.agrees_iff_within.1 hv)
  exact ⟨v, holds_iff_trueUnder.2 hTrue⟩

theorem not_satisfiable_of_nil_mem (h : [] ∈ f) : ¬f.Satisfiable := by
  rintro ⟨v, hHolds⟩
  exact not_trueUnder_of_nil_mem h (holds_iff_trueUnder.1 hHolds)

namespace Verdict

/-- The search from the empty assignment gives the verdict on the formula. -/
theorem search (f : Formula) (s : Counters) : f.Verdict (f.search ∅ s).1 := by
  have run := searchRun f ∅ s
  cases hResult : (f.search ∅ s).1 with
  | none =>
      rintro ⟨v, hHolds⟩
      exact run.not_trueUnder hResult (Assignment.agrees_iff_within.1 (Assignment.agrees_empty v))
        (holds_iff_trueUnder.1 hHolds)
  | some model =>
      refine ⟨satisfiedBy_iff_trueUnder.2 (run.trueUnder_model hResult), ?_⟩
      intro name hMem
      exact (run.mem_or_occurs hResult hMem).resolve_left Std.ExtTreeMap.not_mem_empty

/-- The table has a row for every valuation, and the row of a model satisfies the formula. -/
theorem firstRow (f : Formula) :
    f.Verdict ((Assignment.rows (TruthTableSolver.ofFormula f).names ∅).find?
      (f.satisfiedBy ·)) := by
  cases hFind : (Assignment.rows (TruthTableSolver.ofFormula f).names ∅).find?
      (f.satisfiedBy ·) with
  | none =>
      rintro ⟨v, hHolds⟩
      obtain ⟨row, hRow, hAgrees⟩ := Assignment.exists_row_agrees
        (TruthTableSolver.ofFormula f).names (Assignment.agrees_empty v)
      have hNames : ∀ l ∈ f.flatten, l.name ∈ row := by
        intro l hMem
        rw [Assignment.mem_of_mem_rows hRow, TruthTableSolver.mem_names_ofFormula]
        exact .inl (List.mem_map_of_mem hMem)
      exact List.find?_eq_none.1 hFind row hRow (satisfiedBy_of_holds hNames hAgrees hHolds)
  | some row =>
      refine ⟨List.find?_some hFind, ?_⟩
      intro name hMem
      have hName := (Assignment.mem_of_mem_rows (List.mem_of_find?_eq_some hFind)).1 hMem
      exact TruthTableSolver.mem_names_ofFormula.1
        (hName.resolve_right Std.ExtTreeMap.not_mem_empty)

end Verdict

end Formula

theorem BacktrackingSolver.verdict (f : Formula) : f.Verdict (ofFormula f).solve.model :=
  Formula.Verdict.search f .zero

/-- The truth table gives the verdict on every formula, and always answers. -/
theorem TruthTableSolver.verdict (f : Formula) :
    ∃ answer solver, (ofFormula f).solve = .ok (answer, solver) ∧ f.Verdict answer := by
  obtain ⟨solver, hSolve⟩ := solve_ofFormula f
  refine ⟨_, solver, hSolve, ?_⟩
  split
  · next hEmpty =>
      obtain ⟨c, hMem, hNil⟩ := List.any_eq_true.1 hEmpty
      exact Formula.not_satisfiable_of_nil_mem (List.isEmpty_iff.1 hNil ▸ hMem)
  · exact Formula.Verdict.firstRow f

end SatLab
