import SatLab.Search.Propagation

/-!
Backtracking search for a model: propagate, then try both values of the first open variable,
true first.

Every node assigns a variable that is open in the formula left by propagation, so the number of
open occurrences falls from a node to its children.
-/

namespace SatLab

namespace Formula

/-- The first literal, in the order of the clauses, whose variable is unassigned. -/
def selectLiteral? (f : Formula) (a : Assignment) : Option Literal :=
  f.flatten.find? (·.isOpen a)

theorem openOccurrences_lt_of_selected {f g : Formula} {a : Assignment} {s : Counters}
    {l : Literal} {value : Bool} (hResidual : (f.propagate a s).residual = some g)
    (hSelect : g.selectLiteral? (f.propagate a s).assignment = some l) :
    g.openOccurrences ((f.propagate a s).assignment.insert l.name value) <
      f.openOccurrences a := by
  have hFound := List.find?_some hSelect
  exact Nat.lt_of_lt_of_le
    (openOccurrences_insert_lt (List.mem_of_find?_eq_some hSelect) (Literal.isOpen_iff.1 hFound))
    (openOccurrences_le (flatten_propagate_sublist hResidual) fun _ h => mem_propagate h)

/-- Looks for a model that extends an assignment, and counts on from the given counters. -/
def search (f : Formula) (a : Assignment) (s : Counters) : Option Assignment × Counters :=
  let reached := f.propagate a s
  match _ : reached.residual with
  | none => (none, reached.counters.addConflict)
  | some g =>
    if g.isEmpty then (some reached.assignment, reached.counters)
    else if g.any List.isEmpty then (none, reached.counters.addConflict)
    else
      match _ : g.selectLiteral? reached.assignment with
      | none => (none, reached.counters.addConflict)
      | some l =>
        match search g (reached.assignment.insert l.name true) reached.counters.addDecision with
        | (some model, s') => (some model, s')
        | (none, s') =>
          match search g (reached.assignment.insert l.name false) s' with
          | (some model, s'') => (some model, s'')
          | (none, s'') => (none, s''.addConflict)
termination_by f.openOccurrences a
decreasing_by all_goals exact openOccurrences_lt_of_selected ‹_› ‹_›

/-- How many nested calls are allowed while a formula is searched: one for each variable, and a
thousand for the callers and what they call besides. A higher limit stays. -/
def callLimit (f : Formula) (limit : Nat) : Nat :=
  let needed := f.variableNames.length + 1000
  if needed > limit then needed else limit

end Formula

/-- A solver that works on its own copy of a formula and keeps the result of its last search. -/
structure BacktrackingSolver where
  formula : Formula
  model : Option Assignment
  counters : Counters

namespace BacktrackingSolver

def ofFormula (f : Formula) : BacktrackingSolver :=
  { formula := f, model := none, counters := .zero }

/-- Searches from the empty assignment with fresh counters. -/
def solve (s : BacktrackingSolver) : BacktrackingSolver :=
  let (model, counters) := s.formula.search ∅ .zero
  { s with model, counters }

end BacktrackingSolver

end SatLab
