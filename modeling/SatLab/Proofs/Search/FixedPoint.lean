import SatLab.Proofs.Search.Decision

/-! What propagation ends with. Every step adds one entry that the formula forces. A formula that is
left has no unit clause, so propagating again finds nothing to do. -/

namespace SatLab

theorem Assignment.size_insert_entry {a : Assignment} {name : String} (hNew : name ∉ a)
    (value : Bool) : (a.insert name value).size = a.size + 1 := by
  rw [Std.ExtTreeMap.size_insert, if_neg]
  rwa [Std.ExtTreeMap.contains_iff_mem]

namespace Formula

/-- There is no unit clause exactly when no clause has one literal. -/
theorem firstUnit?_eq_none_iff {g : Formula} : g.firstUnit? = none ↔ ∀ c ∈ g, c.length ≠ 1 := by
  rw [firstUnit?, List.findSome?_eq_none_iff]
  apply forall₂_congr
  intro c _
  match c with
  | [] => simp
  | [l] => simp
  | l :: k :: c => simp

/-- What an assignment leaves of a formula that propagation has nothing to do for. -/
structure IsFixedPoint (f g : Formula) (a : Assignment) : Prop where
  simplified : f.simplify a = some g
  twoLiterals : ∀ c ∈ g, 2 ≤ c.length
  unassigned : ∀ name ∈ a, name ∉ g.variableNames
  stops : ∀ s, g.propagate a s = { residual := some g, assignment := a, counters := s }
  stopsAfresh : ∀ s, f.propagate a s = { residual := some g, assignment := a, counters := s }

/-- Propagation has nothing to do where no unit clause is left. -/
theorem propagate_of_settled {f g : Formula} {a : Assignment} (hSimplify : f.simplify a = some g)
    (hUnit : g.firstUnit? = none) (s : Counters) :
    f.propagate a s = { residual := some g, assignment := a, counters := s } :=
  (PropagationRun.settled hSimplify hUnit).eq_propagate

theorem isFixedPoint_of_settled {f g : Formula} {a : Assignment}
    (hSimplify : f.simplify a = some g) (hUnit : g.firstUnit? = none) : f.IsFixedPoint g a where
  simplified := hSimplify
  twoLiterals := by
    intro c hMem
    have hNil : c ≠ [] := by
      intro hEmpty
      exact nil_not_mem_of_simplify hSimplify (hEmpty ▸ hMem)
    have hPositive := List.length_pos_iff.2 hNil
    have hNoUnit := firstUnit?_eq_none_iff.1 hUnit c hMem
    omega
  unassigned := by
    intro name hAssigned hName
    obtain ⟨l, hMem, rfl⟩ := List.mem_map.1 (mem_variableNames.1 hName)
    exact name_not_mem_of_mem_simplify hSimplify hMem hAssigned
  stops := propagate_of_settled (simplify_self hSimplify) hUnit
  stopsAfresh := propagate_of_settled hSimplify hUnit

namespace PropagationRun

variable {f g : Formula} {a : Assignment} {s : Counters} {reached : Propagated}

/-- The entries that are added count the steps. -/
theorem exists_steps (run : PropagationRun f a s reached) :
    ∃ steps, reached.assignment.size = a.size + steps ∧
      reached.counters = { s with propagations := s.propagations + steps } := by
  induction run with
  | contradiction => exact ⟨0, rfl, rfl⟩
  | settled => exact ⟨0, rfl, rfl⟩
  | resolved hSimplify hUnit rest ih =>
      obtain ⟨steps, hSize, hCounters⟩ := ih
      rw [Assignment.size_insert_entry (unit_unassigned hSimplify hUnit)] at hSize
      have hAgain : ∀ n : Nat, n + 1 + steps = n + (steps + 1) := by omega
      rw [Counters.addPropagation, hAgain] at hCounters
      exact ⟨steps + 1, by omega, hCounters⟩

/-- Propagation takes no entry back. -/
theorem size_le (run : PropagationRun f a s reached) : a.size ≤ reached.assignment.size := by
  obtain ⟨steps, hSize, _⟩ := run.exists_steps
  omega

/-- The propagations counted are the entries made. -/
theorem counters_eq (run : PropagationRun f a s reached) : reached.counters =
    { s with propagations := s.propagations + (reached.assignment.size - a.size) } := by
  obtain ⟨steps, hSize, hCounters⟩ := run.exists_steps
  rw [hCounters, hSize, Nat.add_sub_cancel_left]

/-- Without a contradiction, propagation ends in a fixed point. -/
theorem isFixedPoint (run : PropagationRun f a s reached) (hLeft : reached.residual = some g) :
    f.IsFixedPoint g reached.assignment :=
  isFixedPoint_of_settled (run.simplify_reached hLeft) (run.unit_free hLeft)

/-- A valuation that makes the formula true agrees with every entry propagated. -/
theorem agrees_reached (run : PropagationRun f a s reached) {v : Valuation}
    (hv : Assignment.Agrees v a) (hHolds : f.holds v = true) :
    Assignment.Agrees v reached.assignment := by
  apply Assignment.agrees_iff_within.2
  exact run.within_reached (Assignment.agrees_iff_within.1 hv) (holds_iff_trueUnder.1 hHolds)

/-- After a contradiction nothing that agrees with the start makes the formula true. -/
theorem not_holds (run : PropagationRun f a s reached) (hLeft : reached.residual = none)
    {v : Valuation} (hv : Assignment.Agrees v a) : ¬f.holds v = true := by
  rw [holds_iff_trueUnder]
  exact run.not_trueUnder hLeft (Assignment.agrees_iff_within.1 hv)

end PropagationRun

/-- Propagation is exact. It keeps the entries it starts with, and adds one entry for a variable of
the formula with each unit clause that it counts. Every model that extends the start extends what is
reached, which is a fixed point; after a contradiction there is no such model. -/
theorem propagate_exact (f : Formula) (a : Assignment) (s : Counters) :
    let reached := f.propagate a s
    reached.assignment.Extends a ∧
      (∀ name ∈ reached.assignment, name ∈ a ∨ name ∈ f.variableNames) ∧
      a.size ≤ reached.assignment.size ∧
      reached.counters =
        { s with propagations := s.propagations + (reached.assignment.size - a.size) } ∧
      match reached.residual with
      | none => ¬∃ v, Assignment.Agrees v a ∧ f.holds v = true
      | some g => f.IsFixedPoint g reached.assignment ∧
          ∀ v, Assignment.Agrees v a → f.holds v = true →
            Assignment.Agrees v reached.assignment := by
  intro reached
  have run : PropagationRun f a s reached := propagationRun f a s
  have hNames : ∀ name ∈ reached.assignment, name ∈ a ∨ name ∈ f.variableNames := by
    intro name hMem
    rw [mem_variableNames]
    exact run.mem_or_occurs hMem
  refine ⟨run.extends_start, hNames, run.size_le, run.counters_eq, ?_⟩
  cases hLeft : reached.residual with
  | none =>
      intro hModel
      obtain ⟨v, hv, hHolds⟩ := hModel
      exact run.not_holds hLeft hv hHolds
  | some g => exact ⟨run.isFixedPoint hLeft, fun v => run.agrees_reached⟩

/-- The unit clause comes late, and its variable makes another clause one. -/
def cascade : Formula :=
  [[⟨"p", true, by decide⟩, ⟨"q", false, by decide⟩],
    [⟨"r", false, by decide⟩, ⟨"s", false, by decide⟩, ⟨"r", false, by decide⟩],
    [⟨"p", false, by decide⟩],
    [⟨"z", false, by decide⟩, ⟨"q", true, by decide⟩, ⟨"s", false, by decide⟩,
      ⟨"r", true, by decide⟩]]

def cascadeLeft : Formula :=
  [[⟨"r", false, by decide⟩, ⟨"s", false, by decide⟩, ⟨"r", false, by decide⟩],
    [⟨"s", false, by decide⟩, ⟨"r", true, by decide⟩]]

def cascadeReached : Assignment := (forkStart.insert "p" true).insert "q" true

theorem propagate_exact_cascade :
    let v : Valuation := fun name => name != "z"
    Assignment.Agrees v forkStart ∧ cascade.holds v = true ∧ Assignment.Agrees v cascadeReached ∧
      cascade.IsFixedPoint cascadeLeft cascadeReached ∧
      (cascade.propagate forkStart .zero).counters =
        { decisions := 0, propagations := 2, conflicts := 0 } := by
  intro v
  have hReached : (cascade.propagate forkStart .zero).assignment = cascadeReached := by
    decide +kernel
  have hLeft : (cascade.propagate forkStart .zero).residual = some cascadeLeft := by
    decide +kernel
  have hAgrees : Assignment.Agrees v forkStart := by
    apply Assignment.agrees_iff_within.2
    exact (Assignment.agrees_iff_within.1 (Assignment.agrees_empty v)).insert (by decide)
  have hHolds : cascade.holds v = true := by decide
  obtain ⟨_, _, _, hCounters, hEnd⟩ := propagate_exact cascade forkStart .zero
  rw [hLeft, hReached] at hEnd
  have hCount : (cascade.propagate forkStart .zero).counters =
      { decisions := 0, propagations := 2, conflicts := 0 } := by
    rw [hCounters, hReached]
    decide +kernel
  exact ⟨hAgrees, hHolds, hEnd.2 v hAgrees hHolds, hEnd.1, hCount⟩

end Formula

end SatLab
