import SatLab.Proofs.Search.Backtracking

/-! The search decides whether some valuation extends the given assignment to a model. Every node
of a search carries the same invariant: under the assignment reached there, the formula that is
left is true exactly when the formula of the node above is. -/

namespace SatLab

namespace Formula

namespace PropagationRun

variable {f g : Formula} {a : Assignment} {s : Counters} {reached : Propagated} {l : Literal}

/-- A branch gives a value to a name that has none. -/
theorem extends_branch (run : PropagationRun f a s reached)
    (hSelect : g.selectLiteral? reached.assignment = some l) (value : Bool) :
    Assignment.Extends (reached.assignment.insert l.name value) a :=
  (Assignment.extends_insert (unassigned_of_selectLiteral? hSelect) value).trans run.extends_start

/-- What a branch assigns occurs in the formula of its node. -/
theorem mem_branch_or_occurs (run : PropagationRun f a s reached)
    (hLeft : reached.residual = some g) (hSelect : g.selectLiteral? reached.assignment = some l)
    {value : Bool} {name : String} (h : name ∈ reached.assignment.insert l.name value) :
    name ∈ a ∨ name ∈ f.occurrences := by
  rcases Assignment.mem_insert_entry.1 h with rfl | hReached
  · have hMem := List.mem_map_of_mem (f := Literal.name) (mem_of_selectLiteral? hSelect)
    exact .inr (occurs_of_simplify (run.simplify_reached hLeft) hMem)
  · exact run.mem_or_occurs hReached

/-- What satisfies the formula that is left satisfies the formula of the node. -/
theorem trueUnder_of_residual (run : PropagationRun f a s reached)
    (hLeft : reached.residual = some g) {p : PartialValuation} (hp : reached.assignment.Within p)
    (hTrue : g.TrueUnder p) : f.TrueUnder p :=
  (trueUnder_residual_iff (run.simplify_reached hLeft) hp).1 hTrue

end PropagationRun

namespace SearchRun

variable {f : Formula} {a model : Assignment} {s : Counters}
    {result : Option Assignment × Counters}

/-- The search changes no entry it is given. -/
theorem extends_start (run : SearchRun f a s result) (h : result.1 = some model) :
    model.Extends a := by
  induction run with
  | contradiction => cases h
  | solved run hLeft =>
      cases h
      exact run.extends_start
  | onTrue run hLeft hSelect left ihLeft =>
      exact (ihLeft h).trans (run.extends_branch hSelect true)
  | onFalse run hLeft hSelect left right ihLeft ihRight =>
      exact (ihRight h).trans (run.extends_branch hSelect false)
  | failed => cases h

/-- The names of a model come from the start or from the formula. -/
theorem mem_or_occurs (run : SearchRun f a s result) (h : result.1 = some model) {name : String}
    (hMem : name ∈ model) : name ∈ a ∨ name ∈ f.occurrences := by
  induction run with
  | contradiction => cases h
  | solved run hLeft =>
      cases h
      exact run.mem_or_occurs hMem
  | onTrue run hLeft hSelect left ihLeft =>
      rcases ihLeft h with hBranch | hOccurs
      · exact run.mem_branch_or_occurs hLeft hSelect hBranch
      · exact .inr (occurs_of_simplify (run.simplify_reached hLeft) hOccurs)
  | onFalse run hLeft hSelect left right ihLeft ihRight =>
      rcases ihRight h with hBranch | hOccurs
      · exact run.mem_branch_or_occurs hLeft hSelect hBranch
      · exact .inr (occurs_of_simplify (run.simplify_reached hLeft) hOccurs)
  | failed => cases h

/-- The search stops where no clause is left, and on the way up from there each node adds only
clauses that its own assignment satisfies. -/
theorem trueUnder_model (run : SearchRun f a s result) (h : result.1 = some model) :
    f.TrueUnder model.values := by
  induction run with
  | contradiction => cases h
  | solved run hLeft =>
      cases h
      exact run.trueUnder_of_residual hLeft (Assignment.within_values _) (List.forall_mem_nil _)
  | onTrue run hLeft hSelect left ihLeft =>
      have hNew := Assignment.extends_insert (unassigned_of_selectLiteral? hSelect) true
      exact run.trueUnder_of_residual hLeft ((left.extends_start h).trans hNew) (ihLeft h)
  | onFalse run hLeft hSelect left right ihLeft ihRight =>
      have hNew := Assignment.extends_insert (unassigned_of_selectLiteral? hSelect) false
      exact run.trueUnder_of_residual hLeft ((right.extends_start h).trans hNew) (ihRight h)
  | failed => cases h

/-- A model of the formula extends what propagation reaches, and it gives the variable of the
branch one of the two values that were tried. -/
theorem not_trueUnder (run : SearchRun f a s result) (h : result.1 = none) {v : Valuation}
    (hv : a.Within (Valuation.values v)) : ¬f.TrueUnder (Valuation.values v) := by
  induction run with
  | contradiction run hLeft => exact run.not_trueUnder hLeft hv
  | solved => cases h
  | onTrue => cases h
  | onFalse => cases h
  | @failed f g a s s' s'' reached l run hLeft hSelect left right ihLeft ihRight =>
      intro hTrue
      have hReached := run.within_reached hv hTrue
      have hLeftTrue := (trueUnder_residual_iff (run.simplify_reached hLeft) hReached).2 hTrue
      -- The model goes on into the branch of the value it gives.
      cases hValue : v l.name with
      | true => exact ihLeft rfl (hReached.insert (congrArg some hValue)) hLeftTrue
      | false => exact ihRight rfl (hReached.insert (congrArg some hValue)) hLeftTrue

end SearchRun

variable {f : Formula} {a model : Assignment} {s : Counters}

theorem mem_variableNames {name : String} : name ∈ f.variableNames ↔ name ∈ f.occurrences :=
  List.mem_eraseDups

/-- Whatever the search returns is a model of the formula it was given. It keeps the assignment it
starts from, and it names nothing but variables of the formula besides. -/
theorem search_sound (h : (f.search a s).1 = some model) :
    model.Extends a ∧ (∀ name ∈ model, name ∈ a ∨ name ∈ f.variableNames) ∧
      f.satisfiedBy model = true ∧ ∀ v, Assignment.Agrees v model → f.holds v = true := by
  have run := searchRun f a s
  have hTrue := run.trueUnder_model h
  refine ⟨run.extends_start h, ?_, satisfiedBy_iff_trueUnder.2 hTrue, ?_⟩
  · intro name hMem
    rw [mem_variableNames]
    exact run.mem_or_occurs h hMem
  · intro v hv
    exact holds_iff_trueUnder.2 (hTrue.mono (Assignment.agrees_iff_within.1 hv))

/-- No clause is a unit clause, so the search has to branch. The first value of `a` fails. -/
def fork : Formula :=
  [[⟨"a", false, by decide⟩, ⟨"b", false, by decide⟩],
    [⟨"a", true, by decide⟩, ⟨"c", false, by decide⟩],
    [⟨"a", true, by decide⟩, ⟨"c", true, by decide⟩],
    [⟨"d", false, by decide⟩, ⟨"b", true, by decide⟩, ⟨"e", false, by decide⟩]]

def forkStart : Assignment := (∅ : Assignment).insert "z" false

def forkModel : Assignment :=
  (((∅ : Assignment).insert "z" false |>.insert "a" false).insert "b" true).insert "d" true

theorem search_sound_fork :
    (fork.search forkStart .zero).1 = some forkModel ∧ Assignment.Extends forkModel forkStart ∧
      (∀ name ∈ forkModel, name ∈ forkStart ∨ name ∈ fork.variableNames) ∧
      fork.satisfiedBy forkModel = true ∧
      ∀ v, Assignment.Agrees v forkModel → fork.holds v = true := by
  have hFound : (fork.search forkStart .zero).1 = some forkModel := by decide +kernel
  exact ⟨hFound, search_sound hFound⟩

/-- The search fails if and only if no valuation that agrees with the assignment is a model. -/
theorem search_eq_none_iff (f : Formula) (a : Assignment) (s : Counters) :
    (f.search a s).1 = none ↔ ¬∃ v, Assignment.Agrees v a ∧ f.holds v = true := by
  have run := searchRun f a s
  constructor
  · rintro hNone ⟨v, hv, hHolds⟩
    exact run.not_trueUnder hNone (Assignment.agrees_iff_within.1 hv)
      (holds_iff_trueUnder.1 hHolds)
  · intro hNo
    cases hResult : (f.search a s).1 with
    | none => rfl
    | some model =>
        obtain ⟨v, hv⟩ := model.exists_agrees
        have hWithin := Assignment.agrees_iff_within.1 hv
        have hHolds := holds_iff_trueUnder.2 ((run.trueUnder_model hResult).mono hWithin)
        have hAgrees := Assignment.agrees_iff_within.2 ((run.extends_start hResult).within hWithin)
        exact (hNo ⟨v, hAgrees, hHolds⟩).elim

end Formula

end SatLab
