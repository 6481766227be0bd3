import SatLab.Proofs.Search.Decision
import SatLab.Search.TruthTable

/-! The truth table as a list of rows. The solver reads the rows in order up to the first model, and
no name it looks up is missing. -/

namespace SatLab

namespace Assignment

/-- The assignments that give every one of the names a value and start from `a`, in the order of
the truth table. -/
def rows : List String → Assignment → List Assignment
  | [], a => [a]
  | name :: names, a => rows names (a.insert name true) ++ rows names (a.insert name false)

theorem valueOf_eq_ok {a : Assignment} {name : String} {value : Bool}
    (h : a[name]? = some value) : valueOf a name = .ok value := by
  rw [valueOf, h]

variable {names : List String} {a row : Assignment}

/-- A row names what it starts from and the names of the table. -/
theorem mem_of_mem_rows (h : row ∈ rows names a) {name : String} :
    name ∈ row ↔ name ∈ names ∨ name ∈ a := by
  induction names generalizing a with
  | nil =>
      rw [rows, List.mem_singleton] at h
      rw [h]
      exact (or_iff_right List.not_mem_nil).symm
  | cons first names ih =>
      rw [rows, List.mem_append] at h
      have hInsert : ∀ value, row ∈ rows names (a.insert first value) →
          (name ∈ row ↔ name ∈ first :: names ∨ name ∈ a) := by
        intro value hRow
        rw [ih hRow, mem_insert_entry, List.mem_cons, or_left_comm, eq_comm, or_assoc]
      rcases h with hTrue | hFalse
      · exact hInsert true hTrue
      · exact hInsert false hFalse

/-- The table misses no valuation. -/
theorem exists_row_agrees (names : List String) {v : Valuation} (h : Agrees v a) :
    ∃ row ∈ rows names a, Agrees v row := by
  induction names generalizing a with
  | nil => exact ⟨a, List.mem_singleton_self a, h⟩
  | cons first names ih =>
      have hFirst : Agrees v (a.insert first (v first)) :=
        agrees_iff_within.2 ((agrees_iff_within.1 h).insert rfl)
      obtain ⟨row, hRow, hAgrees⟩ := ih hFirst
      refine ⟨row, ?_, hAgrees⟩
      rw [rows, List.mem_append]
      cases hValue : v first with
      | true => exact .inl (hValue ▸ hRow)
      | false => exact .inr (hValue ▸ hRow)

end Assignment

namespace Clause

/-- Where every name has a value, looking values up gives the truth of the clause. -/
theorem checkedBy_eq_ok {c : Clause} {a : Assignment} (h : ∀ l ∈ c, l.name ∈ a) :
    checkedBy c a = .ok (satisfiedBy c a) := by
  induction c with
  | nil => rfl
  | cons l c ih =>
      obtain ⟨value, hValue⟩ := Assignment.mem_iff_exists_value.1 (h l List.mem_cons_self)
      have hRest := ih fun k hMem => h k (List.mem_cons_of_mem _ hMem)
      have hFirst : satisfiedBy (l :: c) a =
          ((value == l.requiredValue) || satisfiedBy c a) := by
        simp only [satisfiedBy, List.any_cons, Literal.value?, hValue, Option.map_some,
          Option.some_beq_some, beq_true]
      rw [checkedBy, Assignment.valueOf_eq_ok hValue, hFirst, hRest]
      change (if value == l.requiredValue then Except.ok true else .ok (satisfiedBy c a)) = _
      cases value == l.requiredValue <;> rfl

end Clause

namespace Formula

/-- Where every name has a value, a row is checked without a fault. -/
theorem checkedBy_eq_ok {f : Formula} {a : Assignment} (h : ∀ l ∈ f.flatten, l.name ∈ a) :
    f.checkedBy a = .ok (f.satisfiedBy a) := by
  induction f with
  | nil => rfl
  | cons c f ih =>
      rw [List.flatten_cons, List.forall_mem_append] at h
      have hFirst : satisfiedBy (c :: f) a = (Clause.satisfiedBy c a && satisfiedBy f a) := rfl
      rw [checkedBy, Clause.checkedBy_eq_ok h.1, hFirst, ih h.2]
      cases Clause.satisfiedBy c a <;> rfl

/-- The first row that satisfies the formula; `checked` goes up by the rows read. -/
def scanRows (f : Formula) (checked : Nat) : List Assignment → Option Assignment × Nat
  | [] => (none, checked)
  | row :: rows =>
    if f.satisfiedBy row then (some row, checked + 1) else f.scanRows (checked + 1) rows

/-- Scanning two lists of rows is scanning the second one if the first has no model. -/
theorem scanRows_append (f : Formula) (checked : Nat) (first second : List Assignment) :
    f.scanRows checked (first ++ second) =
      match f.scanRows checked first with
      | (some model, count) => (some model, count)
      | (none, count) => f.scanRows count second := by
  induction first generalizing checked with
  | nil => rfl
  | cons row first ih =>
      rw [List.cons_append, scanRows, scanRows]
      split
      · rfl
      · exact ih (checked + 1)

/-- The scan finds the first row that makes the formula true. -/
theorem scanRows_fst (f : Formula) (checked : Nat) (rows : List Assignment) :
    (f.scanRows checked rows).1 = rows.find? (f.satisfiedBy ·) := by
  induction rows generalizing checked with
  | nil => rfl
  | cons row rows ih =>
      rw [scanRows, List.find?_cons]
      cases f.satisfiedBy row with
      | true => rfl
      | false => exact ih (checked + 1)

/-- The solver's recursion over the names reads the rows in order. -/
theorem tryAll_eq_scanRows {f : Formula} {names : List String} {a : Assignment}
    (h : ∀ l ∈ f.flatten, l.name ∈ names ∨ l.name ∈ a) (checked : Nat) :
    f.tryAll names a checked = .ok (f.scanRows checked (Assignment.rows names a)) := by
  induction names generalizing a checked with
  | nil =>
      have hAssigned : ∀ l ∈ f.flatten, l.name ∈ a := fun l hMem =>
        (h l hMem).resolve_left List.not_mem_nil
      rw [tryAll, checkedBy_eq_ok hAssigned, Assignment.rows, scanRows]
      cases f.satisfiedBy a <;> rfl
  | cons name names ih =>
      have hInsert : ∀ value, ∀ l ∈ f.flatten, l.name ∈ names ∨ l.name ∈ a.insert name value := by
        intro value l hMem
        rw [Assignment.mem_insert_entry]
        rcases h l hMem with hName | hAssigned
        · rcases List.mem_cons.1 hName with hEq | hRest
          · exact .inr (.inl hEq.symm)
          · exact .inl hRest
        · exact .inr (.inr hAssigned)
      rw [tryAll, ih (hInsert true), Assignment.rows, scanRows_append]
      cases hScan : f.scanRows checked (Assignment.rows names (a.insert name true)) with
      | mk model count =>
          cases model with
          | some model => rfl
          | none => exact ih (hInsert false) count

/-- An assignment of all variables settles the formula as the valuations that agree with it do. -/
theorem satisfiedBy_of_holds {f : Formula} {a : Assignment} {v : Valuation}
    (hNames : ∀ l ∈ f.flatten, l.name ∈ a) (hAgrees : Assignment.Agrees v a)
    (hHolds : f.holds v = true) : f.satisfiedBy a = true := by
  rw [satisfiedBy_iff]
  intro c hClause
  obtain ⟨l, hMem, hTrue⟩ := Clause.holds_iff.1 (holds_iff.1 hHolds c hClause)
  refine Clause.satisfiedBy_iff.2 ⟨l, hMem, ?_⟩
  obtain ⟨value, hValue⟩ :=
    Assignment.mem_iff_exists_value.1 (hNames l (List.mem_flatten_of_mem hClause hMem))
  rw [Literal.holds, hAgrees l.name value hValue] at hTrue
  rw [Literal.value?, hValue, Option.map_some, hTrue]

end Formula

namespace TruthTableSolver

/-- The table is made of exactly the names in the formula. -/
theorem mem_names_ofFormula {f : Formula} {name : String} :
    name ∈ (ofFormula f).names ↔ name ∈ f.occurrences := by
  rw [ofFormula, List.mem_mergeSort, Formula.mem_variableNames]

/-- The table of a new solver has a column for every variable, so no look-up fails. -/
theorem tryAll_ofFormula (f : Formula) :
    f.tryAll (ofFormula f).names ∅ 0 =
      .ok (f.scanRows 0 (Assignment.rows (ofFormula f).names ∅)) := by
  apply Formula.tryAll_eq_scanRows
  intro l hMem
  exact .inl (mem_names_ofFormula.2 (List.mem_map_of_mem hMem))

/-- What a new solver answers, with the rows laid out. -/
theorem solve_ofFormula (f : Formula) :
    ∃ solver, (ofFormula f).solve =
      .ok (if f.any List.isEmpty then none
        else (Assignment.rows (ofFormula f).names ∅).find? (f.satisfiedBy ·), solver) := by
  have hFormula : (ofFormula f).formula = f := rfl
  rw [solve, hFormula]
  split
  · exact ⟨_, rfl⟩
  · rw [tryAll_ofFormula, ← Formula.scanRows_fst f 0]
    exact ⟨_, rfl⟩

end TruthTableSolver

end SatLab
