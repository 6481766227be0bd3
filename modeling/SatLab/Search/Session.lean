import SatLab.Braces.Printer
import SatLab.Search.Backtracking
import SatLab.Search.TruthTable

/-!
Working on one formula step by step: the formula, an assignment and the counters are kept from
command to command.
-/

namespace SatLab

/-- What a session works on. The formula is missing after a contradiction. -/
structure Session where
  formula : Option Formula
  assignment : Assignment
  counters : Counters

namespace Session

inductive Command where
  | assign (name : String) (value : Bool)
  | unassign (name : String)
  | add (clauses : Formula)
  | reset
  | simplify
  | propagate
  | select
  | decide (value : Bool)
  | variableNames
  | evaluate
  | search
  | truthTable
  /-- Searches for a model and rules it out. -/
  | block
  | print

/-- What a command answers. -/
inductive Reply where
  | nothing
  | value (value : Option Bool)
  | literal (l : Option Literal)
  | names (names : List String)
  | model (model : Option Assignment)
  | checkedModel (model : Option Assignment) (checked : Nat)
  | text (text : String)
  | texts (formula assignment : String)

/-- Why a command has no reply. -/
inductive Fault where
  | unknownName (name : String)
  /-- The clause against a model would need a literal of the empty name. -/
  | emptyName
deriving DecidableEq

/-- The clause that holds, for each name of a model in order, the literal that is false under
it. There is none if the model gives a value to the empty name. -/
def blockingClause? (model : Assignment) : Option Clause :=
  model.toList.mapM fun (name, value) => Literal.ofName? name value

/-- The formula to work on; a contradiction counts as the formula with an empty clause. -/
def current (s : Session) : Formula := s.formula.getD [[]]

/-- Searches for a model and adds the clause against it. The search is counted also if there is no
such clause. -/
def block (s : Session) : Except Fault Reply × Session :=
  let (model, counters) := s.current.search s.assignment s.counters
  let s := { s with counters }
  match model with
  | none => (.ok (.text (resultText none)), s)
  | some m =>
    match blockingClause? m with
    | none => (.error .emptyName, s)
    | some c => (.ok (.text (resultText (some m))), { s with formula := some (s.current ++ [c]) })

/-- Tries the formula alone in the truth table. -/
def tryTable (s : Session) : Except Fault Reply :=
  match (TruthTableSolver.ofFormula s.current).solve with
  | .ok (model, solver) => .ok (.checkedModel model solver.checked)
  | .error e => .error (.unknownName e.name)

/-- One command: its reply, or why it has none, and the session after it. -/
def run (s : Session) (c : Command) : Except Fault Reply × Session :=
  let f := s.current
  let s := { s with formula := some f }
  match c with
  | .assign name value => (.ok .nothing, { s with assignment := s.assignment.insert name value })
  | .unassign name =>
    (.ok (.value s.assignment[name]?), { s with assignment := s.assignment.erase name })
  | .add clauses => (.ok .nothing, { s with formula := some (f ++ clauses) })
  | .reset => (.ok .nothing, { s with assignment := ∅, counters := .zero })
  | .simplify => (.ok .nothing, { s with formula := f.simplify s.assignment })
  | .propagate =>
    let reached := f.propagate s.assignment s.counters
    (.ok .nothing, { formula := reached.residual, assignment := reached.assignment,
                     counters := reached.counters })
  | .select => (.ok (.literal (f.selectLiteral? s.assignment)), s)
  | .decide value =>
    match f.selectLiteral? s.assignment with
    | none => (.ok (.literal none), s)
    | some l =>
      (.ok (.literal (some l)), { s with assignment := s.assignment.insert l.name value })
  | .variableNames => (.ok (.names f.variableNames), s)
  | .evaluate => (.ok (.value (some (f.satisfiedBy s.assignment))), s)
  | .search =>
    let (model, counters) := f.search s.assignment s.counters
    (.ok (.model model), { s with counters })
  | .truthTable => (s.tryTable, s)
  | .block => s.block
  | .print => (.ok (.texts f.text (Assignment.text s.assignment)), s)

end Session

end SatLab
