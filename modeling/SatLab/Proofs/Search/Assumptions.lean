import SatLab.Proofs.Search.Rereading

/-! Searching under assumptions. Entries whose names a formula does not hold take no part in its
search: they are carried along and come back in the model. -/

namespace SatLab

namespace Formula

/-- No variable of the formula has a value in the assignment. -/
def Avoids (g : Formula) (a : Assignment) : Prop := ∀ l ∈ g.flatten, l.name ∉ a

/-- What is left of a formula avoids the names assigned. -/
theorem avoids_of_simplify {f g : Formula} {a : Assignment} (h : f.simplify a = some g) :
    g.Avoids a := fun _ hMem => name_not_mem_of_mem_simplify h hMem

theorem Avoids.residual {f g : Formula} {a b : Assignment} (h : f.Avoids a)
    (hSimplify : f.simplify b = some g) : g.Avoids a :=
  fun l hMem => h l ((flatten_simplify_sublist hSimplify).mem hMem)

/-- Simplification looks up no name but those of the formula. -/
theorem simplify_congr {f : Formula} {a b : Assignment}
    (h : ∀ l ∈ f.flatten, l.value? a = l.value? b) : f.simplify a = f.simplify b := by
  induction f with
  | nil => rfl
  | cons c f ih =>
      have hClause : ∀ l ∈ c, l.value? a = l.value? b := fun l hMem =>
        h l (List.mem_flatten_of_mem List.mem_cons_self hMem)
      have hSatisfied : Clause.satisfiedBy c a = Clause.satisfiedBy c b := by
        rw [Bool.eq_iff_iff, Clause.satisfiedBy_iff, Clause.satisfiedBy_iff]
        apply exists_congr
        intro l
        apply and_congr_right
        intro hMem
        rw [hClause l hMem]
      have hResidual : Clause.residual c a = Clause.residual c b := by
        apply List.filter_congr
        intro l hMem
        rw [hClause l hMem]
      have hRest := ih fun l hMem => h l (List.mem_append_right _ hMem)
      simp only [simplify, hSatisfied, hResidual, hRest]

namespace Avoids

variable {g : Formula} {a b : Assignment}

/-- For a formula that avoids an assignment, the assignment makes no difference. -/
theorem simplify_union (h : g.Avoids a) : g.simplify (a ∪ b) = g.simplify b := by
  apply simplify_congr
  intro l hMem
  rw [Literal.value?_union, Literal.value?_eq_none_iff.2 (h l hMem), Option.or_none]

theorem selectLiteral?_union (h : g.Avoids a) :
    g.selectLiteral? (a ∪ b) = g.selectLiteral? b := by
  rw [selectLiteral?, selectLiteral?, ← List.head?_filter, ← List.head?_filter]
  apply congrArg List.head?
  apply List.filter_congr
  intro l hMem
  rw [Bool.eq_iff_iff, Literal.isOpen_iff, Literal.isOpen_iff, Std.ExtTreeMap.mem_union_iff,
    or_iff_right (h l hMem)]

end Avoids

/-- Propagation passes over entries that the formula does not look up. -/
theorem PropagationRun.union {g : Formula} {a b : Assignment} {s : Counters} {reached : Propagated}
    (run : PropagationRun g b s reached) (h : g.Avoids a) :
    PropagationRun g (a ∪ b) s { reached with assignment := a ∪ reached.assignment } := by
  induction run with
  | contradiction hSimplify => exact .contradiction (h.simplify_union.trans hSimplify)
  | settled hSimplify hUnit => exact .settled (h.simplify_union.trans hSimplify) hUnit
  | resolved hSimplify hUnit rest ih =>
      refine .resolved (h.simplify_union.trans hSimplify) hUnit ?_
      rw [← Assignment.insert_union_entry]
      exact ih (h.residual hSimplify)

/-- A search on a formula that avoids an assignment runs the same beside it, and its model has the
assignment's entries too. -/
theorem SearchRun.union {g : Formula} {a b : Assignment} {s : Counters}
    {result : Option Assignment × Counters} (run : SearchRun g b s result) (h : g.Avoids a) :
    SearchRun g (a ∪ b) s (result.1.map (a ∪ ·), result.2) := by
  induction run with
  | contradiction run hLeft =>
      have hNode := SearchRun.contradiction (run.union h) hLeft
      exact hNode
  | solved run hLeft =>
      have hNode := SearchRun.solved (run.union h) hLeft
      exact hNode
  | onTrue run hLeft hSelect left ihLeft =>
      have hResidual := h.residual (run.simplify_reached hLeft)
      have hLeftRun := ihLeft hResidual
      rw [Assignment.insert_union_entry] at hLeftRun
      exact .onTrue (run.union h) hLeft (hResidual.selectLiteral?_union.trans hSelect) hLeftRun
  | onFalse run hLeft hSelect left right ihLeft ihRight =>
      have hResidual := h.residual (run.simplify_reached hLeft)
      have hLeftRun := ihLeft hResidual
      have hRightRun := ihRight hResidual
      rw [Assignment.insert_union_entry] at hLeftRun hRightRun
      exact .onFalse (run.union h) hLeft (hResidual.selectLiteral?_union.trans hSelect) hLeftRun
        hRightRun
  | failed run hLeft hSelect left right ihLeft ihRight =>
      have hResidual := h.residual (run.simplify_reached hLeft)
      have hLeftRun := ihLeft hResidual
      have hRightRun := ihRight hResidual
      rw [Assignment.insert_union_entry] at hLeftRun hRightRun
      exact .failed (run.union h) hLeft (hResidual.selectLiteral?_union.trans hSelect) hLeftRun
        hRightRun

/-- What a search counts does not depend on where it starts to count. -/
theorem SearchRun.add {f : Formula} {a : Assignment} {s : Counters}
    {result : Option Assignment × Counters} (run : SearchRun f a s result) (t : Counters) :
    SearchRun f a (t + s) (result.1, t + result.2) := by
  induction run with
  | contradiction run hLeft =>
      have hNode := SearchRun.contradiction (run.add t) hLeft
      exact hNode
  | solved run hLeft =>
      have hNode := SearchRun.solved (run.add t) hLeft
      exact hNode
  | onTrue run hLeft hSelect left ihLeft => exact .onTrue (run.add t) hLeft hSelect ihLeft
  | onFalse run hLeft hSelect left right ihLeft ihRight =>
      exact .onFalse (run.add t) hLeft hSelect ihLeft ihRight
  | failed run hLeft hSelect left right ihLeft ihRight =>
      exact .failed (run.add t) hLeft hSelect ihLeft ihRight

/-- The first step of a search reads no more of the formula than its residual. -/
theorem search_residual {f g : Formula} {a : Assignment} (h : f.simplify a = some g)
    (s : Counters) : f.search a s = g.search a s := by
  have hPropagate : f.propagate a s = g.propagate a s := by
    rw [propagate_eq, propagate_eq, propagateStep, propagateStep, h, simplify_self h]
  rw [search_eq, search_eq, hPropagate]

/-- Solving under assumptions is solving what they leave of the formula: the model found for that
alone is joined to the assumptions, and the same work is counted. A contradiction is noticed at
once. -/
theorem search_factors (f : Formula) (a : Assignment) :
    (match f.simplify a with
    | none => ∀ s, f.search a s = (none, s.addConflict)
    | some g => ∃ (found : Option Assignment) (added : Counters), ∀ s,
        g.search ∅ s = (found, s + added) ∧
        g.search a s = (found.map (a ∪ ·), s + added) ∧
        f.search a s = (found.map (a ∪ ·), s + added)) ∧
      ∀ s, f.search a s = f.searchAfresh a s := by
  refine ⟨?_, fun s => (searchAfresh_eq_search f a s).symm⟩
  cases hSimplify : f.simplify a with
  | none =>
      intro s
      exact (SearchRun.contradiction (.contradiction hSimplify) rfl).eq_search
  | some g =>
      -- The run from nothing is shifted to the counters first, and then carried over to `a`.
      have run := searchRun g ∅ .zero
      refine ⟨(g.search ∅ .zero).1, (g.search ∅ .zero).2, fun s => ?_⟩
      have hAlone := run.add s
      have hUnder := hAlone.union (avoids_of_simplify hSimplify)
      rw [Assignment.union_empty_entries] at hUnder
      exact ⟨hAlone.eq_search, hUnder.eq_search,
        (search_residual hSimplify s).trans hUnder.eq_search⟩

end Formula

end SatLab
