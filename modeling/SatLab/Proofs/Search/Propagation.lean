import SatLab.Proofs.Formula.Residual
import SatLab.Search.Propagation

/-! Propagation as a sequence of resolved unit clauses. It assigns only what every model of the
formula assigns, and what it leaves is what the assignment it reaches leaves. -/

namespace SatLab

/-- Counters add up. -/
instance : Add Counters where
  add s t :=
    { decisions := s.decisions + t.decisions
      propagations := s.propagations + t.propagations
      conflicts := s.conflicts + t.conflicts }

namespace Formula

/-- The variable of a unit clause of the simplified formula has no value yet. -/
theorem unit_unassigned {f g : Formula} {a : Assignment} {l : Literal}
    (hSimplify : f.simplify a = some g) (hUnit : g.firstUnit? = some l) : l.name ∉ a :=
  name_not_mem_of_mem_simplify hSimplify (mem_flatten_of_firstUnit? hUnit)

/-- A unit clause never wants the opposite of a value that is given. -/
theorem unit_not_refused {f g : Formula} {a : Assignment} {l : Literal}
    (hSimplify : f.simplify a = some g) (hUnit : g.firstUnit? = some l) :
    a[l.name]? ≠ some (!l.requiredValue) := by
  intro hOpposite
  exact unit_unassigned hSimplify hUnit (Assignment.mem_iff_exists_value.2 ⟨_, hOpposite⟩)

/-- Whatever makes the formula true makes its unit clauses true. -/
theorem unit_trueUnder {g : Formula} {l : Literal} {p : PartialValuation}
    (hUnit : g.firstUnit? = some l) (hTrue : g.TrueUnder p) : l.TrueUnder p := by
  obtain ⟨k, hMem, hk⟩ := hTrue [l] (mem_of_firstUnit? hUnit)
  rw [List.mem_singleton] at hMem
  rwa [← hMem]

/-- One step of propagation. It goes on with the simplified formula if there is a unit clause. -/
def propagateStep (next : Formula → Assignment → Counters → Propagated) (f : Formula)
    (a : Assignment) (s : Counters) : Propagated :=
  match f.simplify a with
  | none => { residual := none, assignment := a, counters := s }
  | some g =>
    match g.firstUnit? with
    | none => { residual := some g, assignment := a, counters := s }
    | some l =>
      if a[l.name]? = some (!l.requiredValue) then
        { residual := none, assignment := a, counters := s }
      else next g (a.insert l.name l.requiredValue) s.addPropagation

section Step

variable {next : Formula → Assignment → Counters → Propagated} {f g : Formula} {a : Assignment}
    {s : Counters} {l : Literal}

theorem propagateStep_of_contradiction (hSimplify : f.simplify a = none) :
    propagateStep next f a s = { residual := none, assignment := a, counters := s } := by
  rw [propagateStep, hSimplify]

theorem propagateStep_of_settled (hSimplify : f.simplify a = some g)
    (hUnit : g.firstUnit? = none) :
    propagateStep next f a s = { residual := some g, assignment := a, counters := s } := by
  rw [propagateStep, hSimplify]
  simp only [hUnit]

theorem propagateStep_of_unit (hSimplify : f.simplify a = some g) (hUnit : g.firstUnit? = some l) :
    propagateStep next f a s = next g (a.insert l.name l.requiredValue) s.addPropagation := by
  rw [propagateStep, hSimplify]
  simp only [hUnit]
  rw [if_neg (unit_not_refused hSimplify hUnit)]

/-- Propagation in terms of one round. -/
theorem propagate_eq (f : Formula) (a : Assignment) (s : Counters) :
    f.propagate a s = propagateStep propagate f a s := by
  rw [propagate, propagateStep]
  cases f.simplify a with
  | none => rfl
  | some g =>
      dsimp only
      cases g.firstUnit? <;> rfl

end Step

/-- The steps of a propagation. A unit clause never has a variable with a value, so no step
contradicts a value. -/
inductive PropagationRun : Formula → Assignment → Counters → Propagated → Prop where
  | contradiction {f : Formula} {a : Assignment} {s : Counters} (hSimplify : f.simplify a = none) :
      PropagationRun f a s { residual := none, assignment := a, counters := s }
  | settled {f g : Formula} {a : Assignment} {s : Counters} (hSimplify : f.simplify a = some g)
      (hUnit : g.firstUnit? = none) :
      PropagationRun f a s { residual := some g, assignment := a, counters := s }
  | resolved {f g : Formula} {a : Assignment} {s : Counters} {l : Literal} {reached : Propagated}
      (hSimplify : f.simplify a = some g) (hUnit : g.firstUnit? = some l)
      (rest : PropagationRun g (a.insert l.name l.requiredValue) s.addPropagation reached) :
      PropagationRun f a s reached

/-- Every propagation is a run of rounds. -/
theorem propagationRun (f : Formula) (a : Assignment) (s : Counters) :
    PropagationRun f a s (f.propagate a s) := by
  fun_induction propagate f a s with
  | case1 f a s hSimplify => exact .contradiction hSimplify
  | case2 f a s g hSimplify hUnit => exact .settled hSimplify hUnit
  | case3 f a s g hSimplify l hUnit hOpposite =>
      exact (unit_not_refused hSimplify hUnit hOpposite).elim
  | case4 f a s g hSimplify l hUnit hFree ih => exact .resolved hSimplify hUnit ih

namespace PropagationRun

variable {f g : Formula} {a : Assignment} {s : Counters} {reached : Propagated}

/-- There is one run from each start, and it is the propagation. -/
theorem eq_propagate (run : PropagationRun f a s reached) : f.propagate a s = reached := by
  induction run with
  | contradiction hSimplify => rw [propagate_eq, propagateStep_of_contradiction hSimplify]
  | settled hSimplify hUnit => rw [propagate_eq, propagateStep_of_settled hSimplify hUnit]
  | resolved hSimplify hUnit rest ih => rw [propagate_eq, propagateStep_of_unit hSimplify hUnit, ih]

/-- Propagation adds entries and changes none. -/
theorem extends_start (run : PropagationRun f a s reached) : reached.assignment.Extends a := by
  induction run with
  | contradiction => exact .refl _
  | settled => exact .refl _
  | resolved hSimplify hUnit rest ih =>
      exact ih.trans (Assignment.extends_insert (unit_unassigned hSimplify hUnit) _)

/-- Only variables of the formula are assigned. -/
theorem mem_or_occurs (run : PropagationRun f a s reached) {name : String}
    (h : name ∈ reached.assignment) : name ∈ a ∨ name ∈ f.occurrences := by
  induction run with
  | contradiction => exact .inl h
  | settled => exact .inl h
  | resolved hSimplify hUnit rest ih =>
      rcases ih h with hStart | hRest
      · rcases Assignment.mem_insert_entry.1 hStart with rfl | hOld
        · have hMem := List.mem_map_of_mem (f := Literal.name) (mem_flatten_of_firstUnit? hUnit)
          exact .inr (occurs_of_simplify hSimplify hMem)
        · exact .inl hOld
      · exact .inr (occurs_of_simplify hSimplify hRest)

/-- The formula that is left is what the assignment reached leaves of the given one. -/
theorem simplify_reached (run : PropagationRun f a s reached) (hLeft : reached.residual = some g) :
    f.simplify reached.assignment = some g := by
  induction run with
  | contradiction => cases hLeft
  | settled hSimplify hUnit => exact hSimplify.trans hLeft
  | resolved hSimplify hUnit rest ih =>
      have hExtends := (PropagationRun.resolved hSimplify hUnit rest).extends_start
      rw [← simplify_residual hSimplify hExtends]
      exact ih hLeft

/-- What propagation leaves has no unit clause. -/
theorem unit_free (run : PropagationRun f a s reached) (hLeft : reached.residual = some g) :
    g.firstUnit? = none := by
  induction run with
  | contradiction => cases hLeft
  | settled hSimplify hUnit =>
      cases hLeft
      exact hUnit
  | resolved hSimplify hUnit rest ih => exact ih hLeft

/-- Each step makes a literal true that stands alone in its clause. -/
theorem within_reached (run : PropagationRun f a s reached) {p : PartialValuation}
    (hp : a.Within p) (hTrue : f.TrueUnder p) : reached.assignment.Within p := by
  induction run with
  | contradiction => exact hp
  | settled => exact hp
  | resolved hSimplify hUnit rest ih =>
      have hLeft := (trueUnder_residual_iff hSimplify hp).2 hTrue
      exact ih (hp.insert (unit_trueUnder hUnit hLeft)) hLeft

/-- After a contradiction nothing that extends the start makes the formula true. -/
theorem not_trueUnder (run : PropagationRun f a s reached) (hLeft : reached.residual = none)
    {p : PartialValuation} (hp : a.Within p) : ¬f.TrueUnder p := by
  induction run with
  | contradiction hSimplify => exact not_trueUnder_of_simplify_eq_none hSimplify hp
  | settled => cases hLeft
  | resolved hSimplify hUnit rest ih =>
      intro hTrue
      have hTrueLeft := (trueUnder_residual_iff hSimplify hp).2 hTrue
      exact ih hLeft (hp.insert (unit_trueUnder hUnit hTrueLeft)) hTrueLeft

/-- The counters only pass through. -/
theorem add (run : PropagationRun f a s reached) (t : Counters) :
    PropagationRun f a (t + s) { reached with counters := t + reached.counters } := by
  induction run with
  | contradiction hSimplify => exact .contradiction hSimplify
  | settled hSimplify hUnit => exact .settled hSimplify hUnit
  | resolved hSimplify hUnit rest ih => exact .resolved hSimplify hUnit ih

end PropagationRun

end Formula

end SatLab
