import SatLab.Proofs.Search.TruthTable

/-! Three ways to check an assignment: by the literals it makes true, by what simplification leaves
of the formula, and by looking up the value of every name. They agree wherever they apply. -/

namespace SatLab

namespace Formula

variable {f g : Formula} {a b : Assignment}

/-- An extension satisfies the formula if and only if it satisfies what the assignment leaves of
it. -/
theorem satisfiedBy_iff_simplify (hb : b.Extends a) :
    f.satisfiedBy b = true ↔ ∃ g, f.simplify a = some g ∧ g.satisfiedBy b = true := by
  have hWithin : a.Within b.values := hb
  simp only [satisfiedBy_iff_trueUnder]
  exact trueUnder_iff_simplify hWithin

/-- A clause that is left has a literal whose variable is unassigned. -/
theorem exists_open_literal (h : f.simplify a = some g) {c : Clause} (hMem : c ∈ g) :
    ∃ l ∈ f.flatten, l.name ∉ a := by
  cases c with
  | nil => exact (nil_not_mem_of_simplify h hMem).elim
  | cons l c =>
      have hLeft : l ∈ g.flatten := List.mem_flatten_of_mem hMem List.mem_cons_self
      exact ⟨l, (flatten_simplify_sublist h).mem hLeft, name_not_mem_of_mem_simplify h hLeft⟩

/-- A formula that is left is satisfied only by an extension with more names. -/
theorem eq_nil_of_satisfiedBy (h : f.simplify a = some g) (hTrue : g.satisfiedBy a = true) :
    g = [] := by
  cases g with
  | nil => rfl
  | cons c g =>
      have hClause := satisfiedBy_iff.1 hTrue c List.mem_cons_self
      obtain ⟨l, hMem, hValue⟩ := Clause.satisfiedBy_iff.1 hClause
      have hOpen : l.value? a = none := Literal.value?_eq_none_iff.2
        (name_not_mem_of_mem_simplify h (List.mem_flatten_of_mem List.mem_cons_self hMem))
      rw [hOpen] at hValue
      cases hValue

/-- Simplifying leaves no clause exactly when the formula evaluates to true. -/
theorem simplify_eq_nil_iff : f.simplify a = some [] ↔ f.satisfiedBy a = true := by
  rw [satisfiedBy_iff_simplify (.refl a)]
  constructor
  · intro h
    exact ⟨[], h, rfl⟩
  · rintro ⟨g, h, hTrue⟩
    rw [h, eq_nil_of_satisfiedBy h hTrue]

/-- An assignment of all variables leaves nothing open. -/
theorem simplify_of_total (hNames : ∀ l ∈ f.flatten, l.name ∈ a) :
    f.simplify a = if f.satisfiedBy a then some [] else none := by
  cases hTrue : f.satisfiedBy a with
  | true => exact simplify_eq_nil_iff.2 hTrue
  | false =>
      cases h : f.simplify a with
      | none => rfl
      | some g =>
          cases g with
          | nil =>
              rw [simplify_eq_nil_iff.1 h] at hTrue
              cases hTrue
          | cons c g =>
              obtain ⟨l, hMem, hOpen⟩ := exists_open_literal h List.mem_cons_self
              exact (hOpen (hNames l hMem)).elim

/-- The checks of an assignment agree. An extension of it satisfies the formula if and only if
simplification finds no contradiction and the extension satisfies what is left; nothing is left
exactly when the assignment satisfies the formula. If all variables have values, looking them up
fails for none of them and gives the same answer, and simplification leaves nothing or finds a
contradiction. -/
theorem satisfaction_checks_agree (f : Formula) (a : Assignment) :
    (∀ b : Assignment, b.Extends a →
      (f.satisfiedBy b = true ↔ ∃ g, f.simplify a = some g ∧ g.satisfiedBy b = true)) ∧
      (f.simplify a = some [] ↔ f.satisfiedBy a = true) ∧
      ((∀ name ∈ f.variableNames, name ∈ a) →
        f.checkedBy a = .ok (f.satisfiedBy a) ∧
          f.simplify a = if f.satisfiedBy a then some [] else none) := by
  refine ⟨fun b hb => satisfiedBy_iff_simplify hb, simplify_eq_nil_iff, fun hTotal => ?_⟩
  have hNames : ∀ l ∈ f.flatten, l.name ∈ a := fun l hMem =>
    hTotal l.name (mem_variableNames.2 (List.mem_map_of_mem hMem))
  exact ⟨checkedBy_eq_ok hNames, simplify_of_total hNames⟩

/-- The model of the fork, with values for the variables that it leaves open. -/
def forkTotal : Assignment := (forkModel.insert "c" false).insert "e" false

/-- The fork is satisfied by its model and by an assignment of all variables, and the value of `a`
makes it false. -/
theorem satisfaction_checks_agree_fork :
    Assignment.Extends forkModel forkStart ∧ fork.satisfiedBy forkModel = true ∧
      (∃ g, fork.simplify forkStart = some g ∧ g.satisfiedBy forkModel = true) ∧
      (∀ name ∈ fork.variableNames, name ∈ forkTotal) ∧ fork.checkedBy forkTotal = .ok true ∧
      fork.simplify forkTotal = some [] ∧
      (∀ name ∈ fork.variableNames, name ∈ forkTotal.insert "a" true) ∧
      fork.checkedBy (forkTotal.insert "a" true) = .ok false ∧
      fork.simplify (forkTotal.insert "a" true) = none := by
  have hFound : (fork.search forkStart .zero).1 = some forkModel := by decide +kernel
  have hExtends : Assignment.Extends forkModel forkStart :=
    (searchRun fork forkStart .zero).extends_start hFound
  have hModel : fork.satisfiedBy forkModel = true := by decide +kernel
  have hTrue : fork.satisfiedBy forkTotal = true := by decide +kernel
  have hFalse : fork.satisfiedBy (forkTotal.insert "a" true) = false := by decide +kernel
  have hNames : ∀ name ∈ fork.variableNames, name ∈ forkTotal := by decide +kernel
  have hNames' : ∀ name ∈ fork.variableNames, name ∈ forkTotal.insert "a" true := by
    decide +kernel
  obtain ⟨hExtension, _, _⟩ := satisfaction_checks_agree fork forkStart
  obtain ⟨hChecked, hLeft⟩ := (satisfaction_checks_agree fork forkTotal).2.2 hNames
  obtain ⟨hChecked', hLeft'⟩ :=
    (satisfaction_checks_agree fork (forkTotal.insert "a" true)).2.2 hNames'
  rw [hTrue] at hChecked hLeft
  rw [hFalse] at hChecked' hLeft'
  exact ⟨hExtends, hModel, (hExtension forkModel hExtends).1 hModel, hNames, hChecked, hLeft,
    hNames', hChecked', hLeft'⟩

end Formula

end SatLab
