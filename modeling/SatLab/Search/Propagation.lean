import SatLab.Formula.Simplify
import SatLab.Search.Counters

/-!
Unit propagation: while the simplified formula has a clause with a single literal, that literal
is made true.

Each step assigns a variable that is still open in the formula, so the number of open
occurrences falls and the loop ends.
-/

namespace SatLab

namespace Formula

/-- The literal of the first clause that has exactly one. -/
def firstUnit? (f : Formula) : Option Literal :=
  f.findSome? fun
    | [l] => some l
    | _ => none

theorem mem_of_firstUnit? {f : Formula} {l : Literal} (h : f.firstUnit? = some l) :
    [l] ∈ f := by
  obtain ⟨c, hMem, hSome⟩ := List.exists_of_findSome?_eq_some h
  split at hSome
  · simp only [Option.some.injEq] at hSome
    subst hSome
    exact hMem
  · cases hSome

theorem mem_flatten_of_firstUnit? {f : Formula} {l : Literal} (h : f.firstUnit? = some l) :
    l ∈ f.flatten :=
  List.mem_flatten_of_mem (mem_of_firstUnit? h) (List.mem_singleton.2 rfl)

/-- What propagation ends with: the formula that is left, or none after a contradiction, the
assignment reached by then, and the counters. -/
structure Propagated where
  residual : Option Formula
  assignment : Assignment
  counters : Counters

/-- A unit clause of the simplified formula closes an open occurrence when its variable is
assigned. -/
theorem openOccurrences_lt_of_unit {f g : Formula} {a : Assignment} {l : Literal} {value : Bool}
    (hSimplify : f.simplify a = some g) (hUnit : g.firstUnit? = some l) :
    g.openOccurrences (a.insert l.name value) < f.openOccurrences a :=
  Nat.lt_of_lt_of_le
    (openOccurrences_insert_lt (mem_flatten_of_firstUnit? hUnit)
      (name_not_mem_of_mem_simplify hSimplify (mem_flatten_of_firstUnit? hUnit)))
    (openOccurrences_le (flatten_simplify_sublist hSimplify) fun _ h => h)

/-- Resolves unit clauses until none remain or one contradicts the assignment. -/
def propagate (f : Formula) (a : Assignment) (s : Counters) : Propagated :=
  match _ : f.simplify a with
  | none => { residual := none, assignment := a, counters := s }
  | some g =>
    match _ : g.firstUnit? with
    | none => { residual := some g, assignment := a, counters := s }
    | some l =>
      if a[l.name]? = some (!l.requiredValue) then
        { residual := none, assignment := a, counters := s }
      else propagate g (a.insert l.name l.requiredValue) s.addPropagation
termination_by f.openOccurrences a
decreasing_by exact openOccurrences_lt_of_unit ‹_› ‹_›

/-- Propagation keeps every entry it starts with. -/
theorem mem_propagate {f : Formula} {a : Assignment} {s : Counters} {name : String}
    (h : name ∈ a) : name ∈ (f.propagate a s).assignment := by
  fun_induction propagate f a s with
  | case1 => exact h
  | case2 => exact h
  | case3 => exact h
  | case4 f a s g hSimplify l hUnit hFree ih =>
      exact ih (Std.ExtTreeMap.mem_insert.2 (.inr h))

/-- The formula that is left has no literals but those of the given formula. -/
theorem flatten_propagate_sublist {f g : Formula} {a : Assignment} {s : Counters}
    (h : (f.propagate a s).residual = some g) : g.flatten.Sublist f.flatten := by
  fun_induction propagate f a s with
  | case1 => cases h
  | case2 f a s g' hSimplify =>
      simp only [Option.some.injEq] at h
      subst h
      exact flatten_simplify_sublist hSimplify
  | case3 => cases h
  | case4 f a s g' hSimplify l hUnit hFree ih =>
      exact (ih h).trans (flatten_simplify_sublist hSimplify)

end Formula

end SatLab
