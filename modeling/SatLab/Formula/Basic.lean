import Std.Data.ExtTreeMap

/-!
Formulas in conjunctive normal form over named variables, and partial assignments.

A formula is a list of clauses and a clause a list of literals; order and repetition are kept,
because the search reads both.
-/

namespace SatLab

/-- A variable, possibly negated. A variable has a name that is not empty. -/
structure Literal where
  name : String
  negated : Bool
  name_ne_empty : name ≠ ""
deriving DecidableEq

abbrev Clause := List Literal

abbrev Formula := List Clause

/-- A partial assignment: the truth values of finitely many names, ordered by name. -/
abbrev Assignment := Std.ExtTreeMap String Bool compare

/-- A total valuation of all names. -/
abbrev Valuation := String → Bool

namespace Literal

/-- The literal of a name, unless the name is empty. -/
def ofName? (name : String) (negated : Bool) : Option Literal :=
  if h : name ≠ "" then some { name, negated, name_ne_empty := h } else none

/-- Why there is no literal of the empty name. -/
def emptyNameMessage : String := "literal name must not be empty"

/-- The value of the variable that makes the literal true. -/
def requiredValue (l : Literal) : Bool := !l.negated

/-- The complementary literal. -/
def negate (l : Literal) : Literal := { l with negated := !l.negated }

instance : Neg Literal := ⟨negate⟩

@[simp] theorem name_negate (l : Literal) : (-l).name = l.name := rfl

@[simp] theorem negate_negate (l : Literal) : -(-l) = l := by
  cases l
  simp [Neg.neg, negate]

/-- The truth value of a literal under an assignment, none while the variable is unassigned. -/
def value? (l : Literal) (a : Assignment) : Option Bool :=
  a[l.name]?.map (· == l.requiredValue)

/-- The truth value of a literal under a total valuation. -/
def holds (l : Literal) (v : Valuation) : Bool := v l.name == l.requiredValue

theorem value?_eq_none_iff {l : Literal} {a : Assignment} :
    l.value? a = none ↔ l.name ∉ a := by
  simp [value?]

/-- Whether the variable of a literal is unassigned. -/
def isOpen (l : Literal) (a : Assignment) : Bool := !a.contains l.name

theorem isOpen_iff {l : Literal} {a : Assignment} : l.isOpen a = true ↔ l.name ∉ a := by
  rw [isOpen, Bool.not_eq_true', ← Bool.not_eq_true, Std.ExtTreeMap.contains_iff_mem]

end Literal

namespace Formula

/-- All names in the order of their literals, repetitions included. -/
def occurrences (f : Formula) : List String := f.flatten.map Literal.name

/-- The variables in the order of their first occurrence. -/
def variableNames (f : Formula) : List String := f.occurrences.eraseDups

end Formula

namespace Assignment

/-- An assignment extends another one if it gives every value the other one gives. -/
def Extends (b a : Assignment) : Prop :=
  ∀ (name : String) (value : Bool), a[name]? = some value → b[name]? = some value

/-- A valuation agrees with an assignment on the names the assignment holds. -/
def Agrees (v : Valuation) (a : Assignment) : Prop :=
  ∀ (name : String) (value : Bool), a[name]? = some value → v name = value

end Assignment

end SatLab
