import SatLab.Proofs.Search.Decision

/-! The search on an assignment that is kept as it was made, one insertion after the other. It reads
no more of it than the values of names, so the order of the insertions has no influence. -/

namespace SatLab

/-- The insertions that made an assignment, the last one first. -/
abbrev Insertions := List (String × Bool)

/-- The last value of every name is the one in the assignment. -/
def Insertions.Make (made : Insertions) (a : Assignment) : Prop :=
  ∀ name : String, made.lookup name = a[name]?

/-- The assignment that insertions make. -/
def Insertions.assignment (made : Insertions) : Assignment :=
  made.foldr (fun entry a => a.insert entry.1 entry.2) ∅

namespace Insertions

variable {made : Insertions} {a : Assignment}

/-- One more insertion makes one more entry. -/
theorem Make.cons (h : made.Make a) (name : String) (value : Bool) :
    Make ((name, value) :: made) (a.insert name value) := by
  intro other
  rw [List.lookup_cons, Assignment.getElem?_insert_entry]
  by_cases hSame : name = other
  · rw [if_pos hSame, hSame, beq_self_eq_true]
  · rw [if_neg hSame, beq_false_of_ne (Ne.symm hSame)]
    exact h other

/-- Insertions make one assignment. -/
theorem Make.eq {b : Assignment} (h : made.Make a) (h' : made.Make b) : a = b :=
  Std.ExtTreeMap.ext_getElem? fun name => (h name).symm.trans (h' name)

theorem make_assignment (made : Insertions) : made.Make made.assignment := by
  induction made with
  | nil =>
      intro name
      exact Std.ExtTreeMap.getElem?_empty.symm
  | cons entry made ih => exact ih.cons entry.1 entry.2

end Insertions

/-- The truth value of a literal after insertions. -/
def Literal.valueAfter? (l : Literal) (made : Insertions) : Option Bool :=
  (made.lookup l.name).map (· == l.requiredValue)

namespace Formula

/-- What insertions leave of a formula. -/
def simplifyAfter (f : Formula) (made : Insertions) : Option Formula :=
  match f with
  | [] => some []
  | c :: rest =>
    if c.any fun l => l.valueAfter? made == some true then simplifyAfter rest made
    else
      let left := c.filter fun l => l.valueAfter? made == none
      if left.isEmpty then none else (simplifyAfter rest made).map (left :: ·)

/-- The first literal whose variable was not inserted. -/
def selectAfter? (f : Formula) (made : Insertions) : Option Literal :=
  f.flatten.find? fun l => (made.lookup l.name).isNone

section Reading

variable {made : Insertions} {a : Assignment}

/-- Simplifying looks values up, and does not see the order of the insertions. -/
theorem simplifyAfter_eq (h : made.Make a) (f : Formula) : f.simplifyAfter made = f.simplify a := by
  have hValue : ∀ l : Literal, l.valueAfter? made = l.value? a := fun l =>
    congrArg (Option.map (· == l.requiredValue)) (h l.name)
  induction f with
  | nil => rfl
  | cons c f ih =>
      simp only [simplifyAfter, simplify, hValue, ih]
      rfl

/-- Selecting does not see the order of the insertions. -/
theorem selectAfter?_eq (h : made.Make a) (f : Formula) :
    f.selectAfter? made = f.selectLiteral? a := by
  have hOpen : ∀ l : Literal, (made.lookup l.name).isNone = l.isOpen a := by
    intro l
    rw [Literal.isOpen, Std.ExtTreeMap.contains_eq_isSome_getElem?, h l.name, Option.not_isSome]
  simp only [selectAfter?, selectLiteral?, hOpen]

end Reading

/-- What propagation on insertions ends with. -/
structure PropagatedAfter where
  residual : Option Formula
  made : Insertions
  counters : Counters

/-- Unit propagation that adds an insertion for every unit clause. -/
def propagateAfter (f : Formula) (made : Insertions) (s : Counters) : PropagatedAfter :=
  match _ : f.simplifyAfter made with
  | none => { residual := none, made, counters := s }
  | some g =>
    match _ : g.firstUnit? with
    | none => { residual := some g, made, counters := s }
    | some l =>
      if made.lookup l.name = some (!l.requiredValue) then
        { residual := none, made, counters := s }
      else propagateAfter g ((l.name, l.requiredValue) :: made) s.addPropagation
termination_by f.openOccurrences made.assignment
decreasing_by
  have hSimplify := simplifyAfter_eq made.make_assignment f
  exact openOccurrences_lt_of_unit (hSimplify.symm.trans ‹_›) ‹_›

/-- The same end of propagation, with the assignment kept in the two ways. -/
structure PropagatedAfter.Matches (p : PropagatedAfter) (reached : Propagated) : Prop where
  residual : p.residual = reached.residual
  made : p.made.Make reached.assignment
  counters : p.counters = reached.counters

/-- Propagation on insertions takes the same steps as on the assignment they make. -/
theorem propagateAfter_matches {f : Formula} {made : Insertions} {a : Assignment} (h : made.Make a)
    (s : Counters) : (f.propagateAfter made s).Matches (f.propagate a s) := by
  fun_induction propagateAfter f made s generalizing a with
  | case1 f made s hSimplify =>
      rw [simplifyAfter_eq h] at hSimplify
      rw [(PropagationRun.contradiction hSimplify).eq_propagate]
      exact ⟨rfl, h, rfl⟩
  | case2 f made s g hSimplify hUnit =>
      rw [simplifyAfter_eq h] at hSimplify
      rw [(PropagationRun.settled hSimplify hUnit).eq_propagate]
      exact ⟨rfl, h, rfl⟩
  | case3 f made s g hSimplify l hUnit hOpposite =>
      rw [simplifyAfter_eq h] at hSimplify
      rw [h l.name] at hOpposite
      exact (unit_not_refused hSimplify hUnit hOpposite).elim
  | case4 f made s g hSimplify l hUnit hFree ih =>
      rw [simplifyAfter_eq h] at hSimplify
      have hRest := ih (h.cons l.name l.requiredValue)
      rwa [← (PropagationRun.resolved hSimplify hUnit (propagationRun _ _ _)).eq_propagate] at hRest

theorem PropagatedAfter.Matches.assignment_cons {p : PropagatedAfter} {reached : Propagated}
    (h : p.Matches reached) (name : String) (value : Bool) :
    Insertions.assignment ((name, value) :: p.made) = reached.assignment.insert name value :=
  (Insertions.make_assignment _).eq (h.made.cons name value)

theorem openOccurrences_lt_of_inserted {f g : Formula} {made : Insertions} {s : Counters}
    {l : Literal} {value : Bool} (hResidual : (f.propagateAfter made s).residual = some g)
    (hSelect : g.selectAfter? (f.propagateAfter made s).made = some l) :
    g.openOccurrences
        (Insertions.assignment ((l.name, value) :: (f.propagateAfter made s).made)) <
      f.openOccurrences made.assignment := by
  have hReached := propagateAfter_matches (f := f) made.make_assignment s
  rw [hReached.residual] at hResidual
  rw [selectAfter?_eq hReached.made] at hSelect
  rw [hReached.assignment_cons]
  exact openOccurrences_lt_of_selected hResidual hSelect

/-- The search that keeps its assignment as insertions. -/
def searchAfter (f : Formula) (made : Insertions) (s : Counters) : Option Insertions × Counters :=
  let reached := f.propagateAfter made s
  match _ : reached.residual with
  | none => (none, reached.counters.addConflict)
  | some g =>
    if g.isEmpty then (some reached.made, reached.counters)
    else if g.any List.isEmpty then (none, reached.counters.addConflict)
    else
      match _ : g.selectAfter? reached.made with
      | none => (none, reached.counters.addConflict)
      | some l =>
        match searchAfter g ((l.name, true) :: reached.made) reached.counters.addDecision with
        | (some model, s') => (some model, s')
        | (none, s') =>
          match searchAfter g ((l.name, false) :: reached.made) s' with
          | (some model, s'') => (some model, s'')
          | (none, s'') => (none, s''.addConflict)
termination_by f.openOccurrences made.assignment
decreasing_by all_goals exact openOccurrences_lt_of_inserted ‹_› ‹_›

/-- What a search on insertions finds is what the search finds, made by its insertions. -/
def Finds (result : Option Insertions × Counters) (expected : Option Assignment × Counters) :
    Prop :=
  Option.Rel Insertions.Make result.1 expected.1 ∧ result.2 = expected.2

theorem Finds.of_some {model : Insertions} {s : Counters}
    {expected : Option Assignment × Counters} (h : Finds (some model, s) expected) :
    ∃ a, model.Make a ∧ expected = (some a, s) := by
  obtain ⟨_ | a, s'⟩ := expected
  · cases h.1
  · obtain ⟨⟨hModel⟩, rfl⟩ := h
    exact ⟨a, hModel, rfl⟩

theorem Finds.of_none {s : Counters} {expected : Option Assignment × Counters}
    (h : Finds (none, s) expected) : expected = (none, s) := by
  obtain ⟨_ | a, s'⟩ := expected
  · obtain ⟨-, rfl⟩ := h
    rfl
  · cases h.1

theorem searchRun_of_eq {f : Formula} {a : Assignment} {s : Counters}
    {result : Option Assignment × Counters} (h : f.search a s = result) : SearchRun f a s result :=
  h ▸ searchRun f a s

/-- The search on insertions visits the same nodes. -/
theorem searchAfter_assignment (f : Formula) (made : Insertions) (s : Counters) :
    Finds (f.searchAfter made s) (f.search made.assignment s) := by
  fun_induction searchAfter f made s with
  | case1 f made s reached hResidual =>
      have hReached : reached.Matches _ := propagateAfter_matches made.make_assignment s
      have hLeft := hReached.residual.symm.trans hResidual
      rw [(SearchRun.contradiction (propagationRun _ _ _) hLeft).eq_search]
      exact ⟨.none, congrArg Counters.addConflict hReached.counters⟩
  | case2 f made s reached g hResidual hEmpty =>
      have hReached : reached.Matches _ := propagateAfter_matches made.make_assignment s
      rw [List.isEmpty_iff] at hEmpty
      subst hEmpty
      have hLeft := hReached.residual.symm.trans hResidual
      rw [(SearchRun.solved (propagationRun _ _ _) hLeft).eq_search]
      exact ⟨.some hReached.made, hReached.counters⟩
  | case3 f made s reached g hResidual hOpen hNil =>
      have hReached : reached.Matches _ := propagateAfter_matches made.make_assignment s
      have hLeft := hReached.residual.symm.trans hResidual
      exact ((propagationRun _ _ _).not_any_isEmpty hLeft hNil).elim
  | case4 f made s reached g hResidual hOpen hNoNil hSelect =>
      have hReached : reached.Matches _ := propagateAfter_matches made.make_assignment s
      have hLeft := hReached.residual.symm.trans hResidual
      rw [selectAfter?_eq hReached.made] at hSelect
      exact ((propagationRun _ _ _).selectLiteral?_ne_none hLeft hOpen hSelect).elim
  | case5 f made s reached g hResidual hOpen hNoNil l hSelect model s' hTrue ihTrue =>
      have hReached : reached.Matches _ := propagateAfter_matches made.make_assignment s
      have hLeft := hReached.residual.symm.trans hResidual
      rw [selectAfter?_eq hReached.made] at hSelect
      rw [hTrue, hReached.assignment_cons l.name true, hReached.counters] at ihTrue
      obtain ⟨found, hFound, hLeftRun⟩ := ihTrue.of_some
      have left := searchRun_of_eq hLeftRun
      rw [(SearchRun.onTrue (propagationRun _ _ _) hLeft hSelect left).eq_search]
      exact ⟨.some hFound, rfl⟩
  | case6 f made s reached g hResidual hOpen hNoNil l hSelect s' hTrue model s'' hFalse ihTrue
      ihFalse =>
      have hReached : reached.Matches _ := propagateAfter_matches made.make_assignment s
      have hLeft := hReached.residual.symm.trans hResidual
      rw [selectAfter?_eq hReached.made] at hSelect
      rw [hTrue, hReached.assignment_cons l.name true, hReached.counters] at ihTrue
      rw [hFalse, hReached.assignment_cons l.name false] at ihFalse
      obtain ⟨found, hFound, hRightRun⟩ := ihFalse.of_some
      have left := searchRun_of_eq ihTrue.of_none
      have right := searchRun_of_eq hRightRun
      rw [(SearchRun.onFalse (propagationRun _ _ _) hLeft hSelect left right).eq_search]
      exact ⟨.some hFound, rfl⟩
  | case7 f made s reached g hResidual hOpen hNoNil l hSelect s' hTrue s'' hFalse ihTrue
      ihFalse =>
      have hReached : reached.Matches _ := propagateAfter_matches made.make_assignment s
      have hLeft := hReached.residual.symm.trans hResidual
      rw [selectAfter?_eq hReached.made] at hSelect
      rw [hTrue, hReached.assignment_cons l.name true, hReached.counters] at ihTrue
      rw [hFalse, hReached.assignment_cons l.name false] at ihFalse
      have left := searchRun_of_eq ihTrue.of_none
      have right := searchRun_of_eq ihFalse.of_none
      rw [(SearchRun.failed (propagationRun _ _ _) hLeft hSelect left right).eq_search]
      exact ⟨.none, rfl⟩

/-- After insertions in any order the search finds what it finds from the assignment they make. -/
theorem searchAfter_finds {f : Formula} {made : Insertions} {a : Assignment} (h : made.Make a)
    (s : Counters) : Finds (f.searchAfter made s) (f.search a s) := by
  rw [h.eq made.make_assignment]
  exact searchAfter_assignment f made s

end Formula

end SatLab
