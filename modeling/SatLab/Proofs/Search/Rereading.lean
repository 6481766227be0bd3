import SatLab.Proofs.Search.Backtracking

/-! A search that reads the given formula again at every step, where the search proper goes on with
what the last step left. Both do the same: a formula and its residual have equal residuals under
every extension of the assignment. -/

namespace SatLab

namespace Formula

/-- Both formulas are read alike from this assignment on. -/
def SameResidual (f g : Formula) (a : Assignment) : Prop :=
  ∀ b : Assignment, b.Extends a → f.simplify b = g.simplify b

theorem SameResidual.refl (f : Formula) (a : Assignment) : SameResidual f f a := fun _ _ => rfl

/-- Formulas with the same rest under an assignment have it under every larger one. -/
theorem SameResidual.step {f g h : Formula} {a b : Assignment} (hSame : SameResidual f g a)
    (hSimplify : g.simplify a = some h) (hb : b.Extends a) : SameResidual f h b := by
  intro c hc
  rw [simplify_residual hSimplify (hc.trans hb)]
  exact hSame c (hc.trans hb)

/-- Propagation that simplifies the whole formula at every step. -/
def propagateAfresh (f : Formula) (a : Assignment) (s : Counters) : Propagated :=
  match _ : f.simplify a with
  | none => { residual := none, assignment := a, counters := s }
  | some g =>
    match _ : g.firstUnit? with
    | none => { residual := some g, assignment := a, counters := s }
    | some l =>
      if a[l.name]? = some (!l.requiredValue) then
        { residual := none, assignment := a, counters := s }
      else propagateAfresh f (a.insert l.name l.requiredValue) s.addPropagation
termination_by f.openOccurrences a
decreasing_by
  exact openOccurrences_insert_lt
    ((flatten_simplify_sublist ‹_›).mem (mem_flatten_of_firstUnit? ‹_›))
    (unit_unassigned ‹_› ‹_›)

theorem propagateAfresh_eq (f : Formula) (a : Assignment) (s : Counters) :
    f.propagateAfresh a s = propagateStep (fun _ => f.propagateAfresh) f a s := by
  rw [propagateAfresh, propagateStep]
  cases f.simplify a with
  | none => rfl
  | some g =>
      dsimp only
      cases g.firstUnit? <;> rfl

/-- Reading the whole formula afresh in each round propagates the same as going on with what is
left. -/
theorem PropagationRun.propagateAfresh_eq {f g : Formula} {a : Assignment} {s : Counters}
    {reached : Propagated} (run : PropagationRun g a s reached) (hSame : SameResidual f g a) :
    f.propagateAfresh a s = reached := by
  induction run with
  | contradiction hSimplify =>
      have hSimplify := (hSame _ (.refl _)).trans hSimplify
      rw [Formula.propagateAfresh_eq, propagateStep_of_contradiction hSimplify]
  | settled hSimplify hUnit =>
      have hSimplify := (hSame _ (.refl _)).trans hSimplify
      rw [Formula.propagateAfresh_eq, propagateStep_of_settled hSimplify hUnit]
  | resolved hSimplify hUnit rest ih =>
      have hFirst := (hSame _ (.refl _)).trans hSimplify
      rw [Formula.propagateAfresh_eq, propagateStep_of_unit hFirst hUnit]
      apply ih
      exact hSame.step hSimplify (Assignment.extends_insert (unit_unassigned hSimplify hUnit) _)

theorem propagationRun_propagateAfresh (f : Formula) (a : Assignment) (s : Counters) :
    PropagationRun f a s (f.propagateAfresh a s) := by
  rw [(propagationRun f a s).propagateAfresh_eq (.refl f a)]
  exact propagationRun f a s

/-- Every branch leaves fewer open occurrences in the formula. -/
theorem openOccurrences_lt_of_branch {f g : Formula} {a : Assignment} {s : Counters}
    {reached : Propagated} {l : Literal} {value : Bool} (run : PropagationRun f a s reached)
    (hLeft : reached.residual = some g) (hSelect : g.selectLiteral? reached.assignment = some l) :
    f.openOccurrences (reached.assignment.insert l.name value) < f.openOccurrences a := by
  have hOccurs := flatten_simplify_sublist (run.simplify_reached hLeft)
  calc f.openOccurrences (reached.assignment.insert l.name value)
      < f.openOccurrences reached.assignment :=
        openOccurrences_insert_lt (hOccurs.mem (mem_of_selectLiteral? hSelect))
          (unassigned_of_selectLiteral? hSelect)
    _ ≤ f.openOccurrences a :=
        openOccurrences_le (.refl _) fun _ hMem => run.extends_start.mem hMem

/-- The search with every node reading the whole formula. -/
def searchAfresh (f : Formula) (a : Assignment) (s : Counters) : Option Assignment × Counters :=
  let reached := f.propagateAfresh a s
  match _ : reached.residual with
  | none => (none, reached.counters.addConflict)
  | some g =>
    if g.isEmpty then (some reached.assignment, reached.counters)
    else if g.any List.isEmpty then (none, reached.counters.addConflict)
    else
      match _ : g.selectLiteral? reached.assignment with
      | none => (none, reached.counters.addConflict)
      | some l =>
        match searchAfresh f (reached.assignment.insert l.name true)
            reached.counters.addDecision with
        | (some model, s') => (some model, s')
        | (none, s') =>
          match searchAfresh f (reached.assignment.insert l.name false) s' with
          | (some model, s'') => (some model, s'')
          | (none, s'') => (none, s''.addConflict)
termination_by f.openOccurrences a
decreasing_by
  all_goals exact openOccurrences_lt_of_branch (propagationRun_propagateAfresh f a s) ‹_› ‹_›

theorem searchAfresh_eq (f : Formula) (a : Assignment) (s : Counters) :
    f.searchAfresh a s = searchNode (fun _ => f.searchAfresh) (f.propagateAfresh a s) := by
  rw [searchAfresh, searchNode]
  cases (f.propagateAfresh a s).residual with
  | none => rfl
  | some g =>
      dsimp only
      cases g.selectLiteral? (f.propagateAfresh a s).assignment <;> rfl

theorem SameResidual.branch {f g h : Formula} {a : Assignment} {s : Counters}
    {reached : Propagated} {l : Literal} (hSame : SameResidual f g a)
    (run : PropagationRun g a s reached) (hLeft : reached.residual = some h)
    (hSelect : h.selectLiteral? reached.assignment = some l) (value : Bool) :
    SameResidual f h (reached.assignment.insert l.name value) := by
  have hNew := Assignment.extends_insert (unassigned_of_selectLiteral? hSelect) value
  have hReached : SameResidual f g reached.assignment := fun b hb =>
    hSame b (hb.trans run.extends_start)
  exact hReached.step (run.simplify_reached hLeft) hNew

/-- A node reads the same residual formula in both searches, so it selects the same literal; below
it both formulas are still read alike. -/
theorem SearchRun.searchAfresh_eq {f g : Formula} {a : Assignment} {s : Counters}
    {result : Option Assignment × Counters} (run : SearchRun g a s result)
    (hSame : SameResidual f g a) : f.searchAfresh a s = result := by
  induction run with
  | contradiction run hLeft =>
      rw [Formula.searchAfresh_eq, run.propagateAfresh_eq hSame, searchNode_of_contradiction hLeft]
  | solved run hLeft =>
      rw [Formula.searchAfresh_eq, run.propagateAfresh_eq hSame, searchNode_of_solved hLeft]
  | onTrue run hLeft hSelect left ihLeft =>
      rw [Formula.searchAfresh_eq, run.propagateAfresh_eq hSame,
        searchNode_of_selected run hLeft hSelect, ihLeft (hSame.branch run hLeft hSelect true)]
  | onFalse run hLeft hSelect left right ihLeft ihRight =>
      rw [Formula.searchAfresh_eq, run.propagateAfresh_eq hSame,
        searchNode_of_selected run hLeft hSelect, ihLeft (hSame.branch run hLeft hSelect true)]
      simp only [ihRight (hSame.branch run hLeft hSelect false)]
  | failed run hLeft hSelect left right ihLeft ihRight =>
      rw [Formula.searchAfresh_eq, run.propagateAfresh_eq hSame,
        searchNode_of_selected run hLeft hSelect, ihLeft (hSame.branch run hLeft hSelect true)]
      simp only [ihRight (hSame.branch run hLeft hSelect false)]

/-- To go on with the formula that is left is no more than an optimisation. -/
theorem searchAfresh_eq_search (f : Formula) (a : Assignment) (s : Counters) :
    f.searchAfresh a s = f.search a s :=
  (searchRun f a s).searchAfresh_eq (.refl f a)

end Formula

end SatLab
