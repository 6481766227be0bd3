/-!
The counters of a search.
-/

namespace SatLab

/-- How much a search has done: branch points entered, unit clauses resolved, and nodes of the
search that failed. -/
structure Counters where
  decisions : Nat
  propagations : Nat
  conflicts : Nat
deriving DecidableEq, Repr

namespace Counters

def zero : Counters := { decisions := 0, propagations := 0, conflicts := 0 }

def addDecision (s : Counters) : Counters := { s with decisions := s.decisions + 1 }

def addPropagation (s : Counters) : Counters := { s with propagations := s.propagations + 1 }

def addConflict (s : Counters) : Counters := { s with conflicts := s.conflicts + 1 }

end Counters

end SatLab
