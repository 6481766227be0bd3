import SatLab.Proofs.Search.Propagation
import SatLab.Search.Backtracking

/-! The search as a tree of nodes. A node that is left open always has a literal to branch on, so
a search only fails on contradictions. -/

namespace SatLab

namespace Formula

/-- The literal to branch on is the first one that is left. -/
theorem selected_of_simplify {f g : Formula} {a : Assignment} (h : f.simplify a = some g)
    (hOpen : g ≠ []) : ∃ l c rest, g = (l :: c) :: rest ∧ g.selectLiteral? a = some l := by
  cases g with
  | nil => exact (hOpen rfl).elim
  | cons c rest =>
      cases c with
      | nil => exact (nil_not_mem_of_simplify h List.mem_cons_self).elim
      | cons l c =>
          refine ⟨l, c, rest, rfl, ?_⟩
          have hFirst : l ∈ List.flatten ((l :: c) :: rest) := by simp
          have hFree : l.isOpen a = true :=
            Literal.isOpen_iff.2 (name_not_mem_of_mem_simplify h hFirst)
          rw [selectLiteral?, List.flatten_cons, List.cons_append, List.find?_cons, hFree]

theorem mem_of_selectLiteral? {g : Formula} {a : Assignment} {l : Literal}
    (h : g.selectLiteral? a = some l) : l ∈ g.flatten := List.mem_of_find?_eq_some h

/-- The literal selected has no value yet. -/
theorem unassigned_of_selectLiteral? {g : Formula} {a : Assignment} {l : Literal}
    (h : g.selectLiteral? a = some l) : l.name ∉ a := by
  rw [selectLiteral?, List.find?_eq_some_iff_append] at h
  exact Literal.isOpen_iff.1 h.1

theorem not_isEmpty_of_selectLiteral? {g : Formula} {a : Assignment} {l : Literal}
    (h : g.selectLiteral? a = some l) : ¬g.isEmpty = true := by
  rw [List.isEmpty_iff]
  rintro rfl
  cases h

namespace PropagationRun

variable {f g : Formula} {a : Assignment} {s : Counters} {reached : Propagated}

/-- Propagation leaves no empty clause. -/
theorem not_any_isEmpty (run : PropagationRun f a s reached) (hLeft : reached.residual = some g) :
    ¬g.any List.isEmpty = true :=
  not_any_isEmpty_of_simplify (run.simplify_reached hLeft)

/-- Where propagation leaves a clause, it leaves a literal to branch on. -/
theorem selectLiteral?_ne_none (run : PropagationRun f a s reached)
    (hLeft : reached.residual = some g) (hOpen : ¬g.isEmpty = true) :
    g.selectLiteral? reached.assignment ≠ none := by
  rw [List.isEmpty_iff] at hOpen
  obtain ⟨l, c, rest, rfl, hSelect⟩ := selected_of_simplify (run.simplify_reached hLeft) hOpen
  rw [hSelect]
  exact Option.some_ne_none l

end PropagationRun

/-- One node of a search: what it makes of a finished propagation. Its branches are searched by
`branch`, which gets the formula that is left. -/
def searchNode (branch : Formula → Assignment → Counters → Option Assignment × Counters)
    (reached : Propagated) : Option Assignment × Counters :=
  match reached.residual with
  | none => (none, reached.counters.addConflict)
  | some g =>
    if g.isEmpty then (some reached.assignment, reached.counters)
    else if g.any List.isEmpty then (none, reached.counters.addConflict)
    else
      match g.selectLiteral? reached.assignment with
      | none => (none, reached.counters.addConflict)
      | some l =>
        match branch g (reached.assignment.insert l.name true) reached.counters.addDecision with
        | (some model, s') => (some model, s')
        | (none, s') =>
          match branch g (reached.assignment.insert l.name false) s' with
          | (some model, s'') => (some model, s'')
          | (none, s'') => (none, s''.addConflict)

section Node

variable {branch : Formula → Assignment → Counters → Option Assignment × Counters} {f g : Formula}
    {a : Assignment} {s : Counters} {reached : Propagated} {l : Literal}

/-- A contradiction ends the branch and costs one conflict. -/
theorem searchNode_of_contradiction (hLeft : reached.residual = none) :
    searchNode branch reached = (none, reached.counters.addConflict) := by
  rw [searchNode, hLeft]

/-- A formula with no clause left ends the search with the assignment reached. -/
theorem searchNode_of_solved (hLeft : reached.residual = some []) :
    searchNode branch reached = (some reached.assignment, reached.counters) := by
  rw [searchNode, hLeft]
  rfl

/-- A node with an open literal tries both of its values. -/
theorem searchNode_of_selected (run : PropagationRun f a s reached)
    (hLeft : reached.residual = some g) (hSelect : g.selectLiteral? reached.assignment = some l) :
    searchNode branch reached =
      match branch g (reached.assignment.insert l.name true) reached.counters.addDecision with
      | (some model, s') => (some model, s')
      | (none, s') =>
        match branch g (reached.assignment.insert l.name false) s' with
        | (some model, s'') => (some model, s'')
        | (none, s'') => (none, s''.addConflict) := by
  rw [searchNode, hLeft]
  simp only [hSelect]
  rw [if_neg (not_isEmpty_of_selectLiteral? hSelect), if_neg (run.not_any_isEmpty hLeft)]

/-- The search in terms of one node: propagate, and then search the branches. -/
theorem search_eq (f : Formula) (a : Assignment) (s : Counters) :
    f.search a s = searchNode search (f.propagate a s) := by
  rw [search, searchNode]
  cases (f.propagate a s).residual with
  | none => rfl
  | some g =>
      dsimp only
      cases g.selectLiteral? (f.propagate a s).assignment <;> rfl

end Node

/-- The nodes of a search, with the model found below each and the counters after it. -/
inductive SearchRun : Formula → Assignment → Counters → Option Assignment × Counters → Prop where
  | contradiction {f : Formula} {a : Assignment} {s : Counters} {reached : Propagated}
      (run : PropagationRun f a s reached) (hLeft : reached.residual = none) :
      SearchRun f a s (none, reached.counters.addConflict)
  | solved {f : Formula} {a : Assignment} {s : Counters} {reached : Propagated}
      (run : PropagationRun f a s reached) (hLeft : reached.residual = some []) :
      SearchRun f a s (some reached.assignment, reached.counters)
  | onTrue {f g : Formula} {a model : Assignment} {s s' : Counters} {reached : Propagated}
      {l : Literal} (run : PropagationRun f a s reached) (hLeft : reached.residual = some g)
      (hSelect : g.selectLiteral? reached.assignment = some l)
      (left : SearchRun g (reached.assignment.insert l.name true) reached.counters.addDecision
        (some model, s')) :
      SearchRun f a s (some model, s')
  | onFalse {f g : Formula} {a model : Assignment} {s s' s'' : Counters} {reached : Propagated}
      {l : Literal} (run : PropagationRun f a s reached) (hLeft : reached.residual = some g)
      (hSelect : g.selectLiteral? reached.assignment = some l)
      (left : SearchRun g (reached.assignment.insert l.name true) reached.counters.addDecision
        (none, s'))
      (right : SearchRun g (reached.assignment.insert l.name false) s' (some model, s'')) :
      SearchRun f a s (some model, s'')
  | failed {f g : Formula} {a : Assignment} {s s' s'' : Counters} {reached : Propagated}
      {l : Literal} (run : PropagationRun f a s reached) (hLeft : reached.residual = some g)
      (hSelect : g.selectLiteral? reached.assignment = some l)
      (left : SearchRun g (reached.assignment.insert l.name true) reached.counters.addDecision
        (none, s'))
      (right : SearchRun g (reached.assignment.insert l.name false) s' (none, s'')) :
      SearchRun f a s (none, s''.addConflict)

/-- Neither of the conflicts that a search counts besides those of propagation and of two failed
values ever arises. -/
theorem searchRun (f : Formula) (a : Assignment) (s : Counters) :
    SearchRun f a s (f.search a s) := by
  fun_induction search f a s with
  | case1 f a s reached hLeft => exact .contradiction (propagationRun f a s) hLeft
  | case2 f a s reached g hLeft hEmpty =>
      rw [List.isEmpty_iff] at hEmpty
      subst hEmpty
      exact .solved (propagationRun f a s) hLeft
  | case3 f a s reached g hLeft hOpen hNil =>
      exact ((propagationRun f a s).not_any_isEmpty hLeft hNil).elim
  | case4 f a s reached g hLeft hOpen hNoNil hSelect =>
      exact ((propagationRun f a s).selectLiteral?_ne_none hLeft hOpen hSelect).elim
  | case5 f a s reached g hLeft hOpen hNoNil l hSelect model s' hTrue ihTrue =>
      rw [hTrue] at ihTrue
      exact .onTrue (propagationRun f a s) hLeft hSelect ihTrue
  | case6 f a s reached g hLeft hOpen hNoNil l hSelect s' hTrue model s'' hFalse ihTrue ihFalse =>
      rw [hTrue] at ihTrue
      rw [hFalse] at ihFalse
      exact .onFalse (propagationRun f a s) hLeft hSelect ihTrue ihFalse
  | case7 f a s reached g hLeft hOpen hNoNil l hSelect s' hTrue s'' hFalse ihTrue ihFalse =>
      rw [hTrue] at ihTrue
      rw [hFalse] at ihFalse
      exact .failed (propagationRun f a s) hLeft hSelect ihTrue ihFalse

/-- There is one run from each start, and it is the search. -/
theorem SearchRun.eq_search {f : Formula} {a : Assignment} {s : Counters}
    {result : Option Assignment × Counters} (run : SearchRun f a s result) :
    f.search a s = result := by
  induction run with
  | contradiction run hLeft =>
      rw [search_eq, run.eq_propagate, searchNode_of_contradiction hLeft]
  | solved run hLeft =>
      rw [search_eq, run.eq_propagate, searchNode_of_solved hLeft]
  | onTrue run hLeft hSelect left ihLeft =>
      rw [search_eq, run.eq_propagate, searchNode_of_selected run hLeft hSelect, ihLeft]
  | onFalse run hLeft hSelect left right ihLeft ihRight =>
      rw [search_eq, run.eq_propagate, searchNode_of_selected run hLeft hSelect, ihLeft]
      simp only [ihRight]
  | failed run hLeft hSelect left right ihLeft ihRight =>
      rw [search_eq, run.eq_propagate, searchNode_of_selected run hLeft hSelect, ihLeft]
      simp only [ihRight]

end Formula

end SatLab
