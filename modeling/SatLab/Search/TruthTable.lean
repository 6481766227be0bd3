import SatLab.Formula.Satisfaction

/-!
Search through the truth table: all assignments of the variables are tried in order, true
before false, the first name in alphabetical order changing slowest.
-/

namespace SatLab

/-- A name that was looked up but has no value. -/
structure UnknownName where
  name : String
deriving DecidableEq

namespace Assignment

/-- The value of a name that has to have one. -/
def valueOf (a : Assignment) (name : String) : Except UnknownName Bool :=
  match a[name]? with
  | some value => .ok value
  | none => .error { name }

end Assignment

namespace Clause

/-- Whether some literal agrees with the assignment, looked at from the left. -/
def checkedBy (c : Clause) (a : Assignment) : Except UnknownName Bool :=
  match c with
  | [] => .ok false
  | l :: rest => do
    if (← Assignment.valueOf a l.name) == l.requiredValue then return true
    checkedBy rest a

end Clause

namespace Formula

/-- Whether every clause holds, looked at from the left; every name met needs a value. -/
def checkedBy (f : Formula) (a : Assignment) : Except UnknownName Bool :=
  match f with
  | [] => .ok true
  | c :: rest => do
    if ← Clause.checkedBy c a then checkedBy rest a
    else return false

/-- Tries all values of the given names on top of an assignment and counts the complete
assignments that were checked. -/
def tryAll (f : Formula) (names : List String) (a : Assignment) (checked : Nat) :
    Except UnknownName (Option Assignment × Nat) :=
  match names with
  | [] => do
    if ← f.checkedBy a then return (some a, checked + 1)
    return (none, checked + 1)
  | name :: rest => do
    match ← tryAll f rest (a.insert name true) checked with
    | (some model, count) => return (some model, count)
    | (none, count) => tryAll f rest (a.insert name false) count

end Formula

/-- A solver that works through the truth table of the names its formula had at first. -/
structure TruthTableSolver where
  formula : Formula
  names : List String
  checked : Nat

namespace TruthTableSolver

def ofFormula (f : Formula) : TruthTableSolver :=
  { formula := f, names := f.variableNames.mergeSort, checked := 0 }

/-- The first model in the order of the table and the number of assignments checked. A formula
with an empty clause is given up at once. -/
def solve (s : TruthTableSolver) : Except UnknownName (Option Assignment × TruthTableSolver) :=
  if s.formula.any List.isEmpty then .ok (none, { s with checked := 0 })
  else do
    let (model, checked) ← s.formula.tryAll s.names ∅ 0
    return (model, { s with checked })

end TruthTableSolver

end SatLab
