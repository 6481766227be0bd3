import Mathlib.Algebra.BigOperators.Fin
import SatLab.Proofs.Formula.OpenVariables
import SatLab.Proofs.Search.TruthTable

/-! The order of the truth table. The rows come in lexicographic order, true before false, so the
place of a row is the number that its values spell in base two. The solver stops at the first model
and has counted the rows up to it. -/

namespace SatLab

namespace Assignment

/-- A row of the table of some names has a value for each of them and for no other name. -/
def IsRow (names : List String) (a : Assignment) : Prop := ∀ name, name ∈ a ↔ name ∈ names

/-- Of two rows the earlier one is true where they first differ. -/
def Before (names : List String) (a b : Assignment) : Prop :=
  ∃ same name rest, names = same ++ name :: rest ∧ (∀ other ∈ same, a[other]? = b[other]?) ∧
    a[name]? = some true ∧ b[name]? = some false

/-- The number of rows before a row. A name that is false lets all rows pass that are true there and
have the same values before. -/
def place (names : List String) (a : Assignment) : Nat :=
  match names with
  | [] => 0
  | name :: rest => (if a[name]? = some false then 2 ^ rest.length else 0) + place rest a

/-- The place of a row is the number that its false entries spell in binary. -/
theorem place_eq_sum (names : List String) (a : Assignment) :
    place names a = ∑ i : Fin names.length,
      if a[names[i]]? = some false then 2 ^ (names.length - (i + 1)) else 0 := by
  induction names with
  | nil => rfl
  | cons name rest ih =>
      refine Eq.trans ?_ (Fin.sum_univ_succ _).symm
      rw [place, ih]
      congr 1
      apply Finset.sum_congr rfl
      intro i _
      simp

section Rows

variable {names : List String} {a row : Assignment}

/-- There are two rows for each further name. -/
theorem length_rows (names : List String) (a : Assignment) :
    (rows names a).length = 2 ^ names.length := by
  induction names generalizing a with
  | nil => rfl
  | cons name rest ih => simp [rows, ih, Nat.pow_succ, Nat.mul_two]

theorem not_mem_insert_of_nodup {first : String} (hNodup : (first :: names).Nodup)
    (hNew : ∀ name ∈ first :: names, name ∉ a) (value : Bool) :
    ∀ name ∈ names, name ∉ a.insert first value := by
  intro name hMem hInserted
  rw [mem_insert_entry] at hInserted
  cases hInserted with
  | inl hSame => exact (List.nodup_cons.1 hNodup).1 (hSame ▸ hMem)
  | inr hOld => exact hNew name (List.mem_cons_of_mem _ hMem) hOld

/-- A row keeps the entries it starts from. -/
theorem extends_of_mem_rows (hNodup : names.Nodup) (hNew : ∀ name ∈ names, name ∉ a)
    (h : row ∈ rows names a) : row.Extends a := by
  induction names generalizing a with
  | nil =>
      rw [rows, List.mem_singleton] at h
      rw [h]
      exact .refl a
  | cons first names ih =>
      have hStep : ∀ value, row ∈ rows names (a.insert first value) → row.Extends a := by
        intro value hRow
        have hRest := ih hNodup.of_cons (not_mem_insert_of_nodup hNodup hNew value) hRow
        exact hRest.trans (extends_insert (hNew first List.mem_cons_self) value)
      rw [rows, List.mem_append] at h
      exact h.elim (hStep true) (hStep false)

/-- Every assignment of the names is a row. -/
theorem mem_rows_of_extends (hExtends : row.Extends a)
    (hNames : ∀ name, name ∈ row ↔ name ∈ names ∨ name ∈ a) : row ∈ rows names a := by
  induction names generalizing a with
  | nil =>
      rw [rows, List.mem_singleton]
      apply Std.ExtTreeMap.ext_getElem?
      intro name
      cases hEntry : a[name]? with
      | some value => exact hExtends name value hEntry
      | none =>
          have hOut : name ∉ row := by
            rw [hNames, mem_iff_exists_value]
            simp [hEntry]
          simpa using hOut
  | cons first names ih =>
      obtain ⟨value, hValue⟩ := mem_iff_exists_value.1 ((hNames first).2 (.inl List.mem_cons_self))
      have hRow : row ∈ rows names (a.insert first value) := by
        apply ih
        · exact Within.insert (p := row.values) hExtends hValue
        · intro name
          rw [hNames, List.mem_cons, mem_insert_entry, or_left_comm, or_assoc, eq_comm]
      rw [rows, List.mem_append]
      cases value with
      | true => exact .inl hRow
      | false => exact .inr hRow

/-- The rows are exactly the assignments of all the names. -/
theorem mem_rows_iff_isRow : row ∈ rows names ∅ ↔ IsRow names row := by
  constructor
  · intro h name
    simpa using mem_of_mem_rows h
  · intro h
    apply mem_rows_of_extends
    · intro name value hEntry
      simp at hEntry
    · simpa [IsRow] using h

/-- The rows come in order. -/
theorem pairwise_rows (hNodup : names.Nodup) (hNew : ∀ name ∈ names, name ∉ a) :
    (rows names a).Pairwise (Before names) := by
  induction names generalizing a with
  | nil => exact List.pairwise_singleton _ _
  | cons first names ih =>
      have hRest := not_mem_insert_of_nodup hNodup hNew
      have hFirst : ∀ value, ∀ row ∈ rows names (a.insert first value),
          row[first]? = some value := by
        intro value row hRow
        apply extends_of_mem_rows hNodup.of_cons (hRest value) hRow
        simp
      have hHalf : ∀ value, (rows names (a.insert first value)).Pairwise
          (Before (first :: names)) := by
        intro value
        refine (ih hNodup.of_cons (hRest value)).imp_of_mem fun {x y} hx hy hBefore => ?_
        obtain ⟨same, name, rest, rfl, hSame, hTrue, hFalse⟩ := hBefore
        refine ⟨first :: same, name, rest, rfl, ?_, hTrue, hFalse⟩
        rw [List.forall_mem_cons, hFirst value x hx, hFirst value y hy]
        exact ⟨rfl, hSame⟩
      rw [rows, List.pairwise_append]
      refine ⟨hHalf true, hHalf false, fun x hx y hy => ?_⟩
      exact ⟨[], first, names, rfl, List.forall_mem_nil _, hFirst true x hx, hFirst false y hy⟩

/-- A row stands where its values say. -/
theorem eq_place_of_getElem? (hNodup : names.Nodup) (hNew : ∀ name ∈ names, name ∉ a) {i : Nat}
    (h : (rows names a)[i]? = some row) : i = place names row := by
  induction names generalizing a i with
  | nil =>
      have hShort := (List.getElem?_eq_some_iff.1 h).1
      rw [length_rows] at hShort
      simpa [place] using hShort
  | cons first names ih =>
      have hRest := not_mem_insert_of_nodup hNodup hNew
      have hHalf : ∀ value j, (rows names (a.insert first value))[j]? = some row →
          row[first]? = some value ∧ j = place names row := by
        intro value j hRow
        refine ⟨?_, ih hNodup.of_cons (hRest value) hRow⟩
        apply extends_of_mem_rows hNodup.of_cons (hRest value) (List.mem_of_getElem? hRow)
        simp
      rw [rows, List.getElem?_append, length_rows] at h
      split at h
      · obtain ⟨hTrue, hPlace⟩ := hHalf true i h
        simp [place, hTrue, ← hPlace]
      · obtain ⟨hFalse, hPlace⟩ := hHalf false _ h
        rw [place, if_pos hFalse, ← hPlace]
        omega

end Rows

end Assignment

namespace Formula

variable {f : Formula} {rows : List Assignment}

/-- A scan without a model counts every row. -/
theorem scanRows_of_none (h : ∀ row ∈ rows, f.satisfiedBy row = false) (checked : Nat) :
    f.scanRows checked rows = (none, checked + rows.length) := by
  induction rows generalizing checked with
  | nil => rfl
  | cons row rows ih =>
      rw [List.forall_mem_cons] at h
      simp [scanRows, h.1, ih h.2]
      omega

/-- The rows up to the first model are counted. -/
theorem scanRows_of_first {model : Assignment} {i : Nat} (hModel : rows[i]? = some model)
    (hTrue : f.satisfiedBy model = true)
    (hFirst : ∀ j < i, ∀ row, rows[j]? = some row → f.satisfiedBy row = false) (checked : Nat) :
    f.scanRows checked rows = (some model, checked + i + 1) := by
  induction rows generalizing i checked with
  | nil => simp at hModel
  | cons row rows ih =>
      cases i with
      | zero =>
          simp at hModel
          simp [scanRows, hModel, hTrue]
      | succ i =>
          have hRow : f.satisfiedBy row = false := hFirst 0 (Nat.succ_pos i) row (by simp)
          have hLater : ∀ j < i, ∀ row, rows[j]? = some row → f.satisfiedBy row = false := by
            intro j hj row hFound
            apply hFirst (j + 1) (Nat.succ_lt_succ hj)
            simpa using hFound
          simp [scanRows, hRow, ih (by simpa using hModel) hLater]
          omega

end Formula

namespace TruthTableSolver

/-- The columns of the table are in order, and there is one for every variable of the formula. -/
structure Covers (s : TruthTableSolver) : Prop where
  sorted : s.names.Pairwise (· < ·)
  complete : ∀ name ∈ s.formula.occurrences, name ∈ s.names

/-- A new solver has such a table. -/
theorem covers_ofFormula (f : Formula) : (ofFormula f).Covers where
  sorted := by
    have hSorted : (ofFormula f).names.Pairwise fun a b => decide (a ≤ b) = true := by
      apply List.pairwise_mergeSort
      · simpa using fun a b c : String => String.le_trans
      · simpa using String.le_total
    have hNodup : (ofFormula f).names.Nodup :=
      (List.mergeSort_perm f.variableNames _).nodup_iff.2 (Formula.nodup_eraseDups f.occurrences)
    exact (hSorted.and hNodup).imp fun hBoth =>
      Std.lt_of_le_of_ne (of_decide_eq_true hBoth.1) hBoth.2
  complete := fun _ => mem_names_ofFormula.2

/-- A model that comes before all others. -/
structure IsFirstModel (s : TruthTableSolver) (model : Assignment) : Prop where
  isRow : Assignment.IsRow s.names model
  satisfies : s.formula.satisfiedBy model = true
  first : ∀ other, Assignment.IsRow s.names other → s.formula.satisfiedBy other = true →
    other = model ∨ Assignment.Before s.names model other

namespace Covers

variable {s : TruthTableSolver} (h : s.Covers)

include h

theorem nodup : s.names.Nodup := h.sorted.imp fun hLt => String.ne_of_lt hLt

/-- The rows are scanned, and no look-up fails. -/
theorem solve_eq (hClauses : [] ∉ s.formula) {answer : Option Assignment} {checked : Nat}
    (hScan : s.formula.scanRows 0 (Assignment.rows s.names ∅) = (answer, checked)) :
    s.solve = .ok (answer, { s with checked }) := by
  have hNone : s.formula.any List.isEmpty = false := by
    rw [List.any_eq_false]
    intro c hMem hNil
    exact hClauses (List.isEmpty_iff.1 hNil ▸ hMem)
  have hTry : s.formula.tryAll s.names ∅ 0 = .ok (answer, checked) := by
    rw [← hScan]
    apply Formula.tryAll_eq_scanRows
    intro l hMem
    exact .inl (h.complete l.name (List.mem_map_of_mem hMem))
  rw [solve, hNone, hTry]
  rfl

/-- The first row that satisfies the formula is its first model, and its place is the number of rows
before it. -/
theorem exists_firstModel {row : Assignment} (hRow : Assignment.IsRow s.names row)
    (hTrue : s.formula.satisfiedBy row = true) : ∃ model, s.IsFirstModel model ∧
      s.formula.scanRows 0 (Assignment.rows s.names ∅) =
        (some model, Assignment.place s.names model + 1) := by
  have hNew : ∀ name ∈ s.names, name ∉ (∅ : Assignment) := by simp
  have hFound : ((Assignment.rows s.names ∅).find? (s.formula.satisfiedBy ·)).isSome := by
    rw [List.find?_isSome]
    exact ⟨row, Assignment.mem_rows_iff_isRow.2 hRow, hTrue⟩
  obtain ⟨model, hFind⟩ := Option.isSome_iff_exists.1 hFound
  obtain ⟨hModel, i, hi, hAt, hBefore⟩ := List.find?_eq_some_iff_getElem.1 hFind
  have hAt? : (Assignment.rows s.names ∅)[i]? = some model := by
    rw [List.getElem?_eq_getElem hi, hAt]
  have hFirst : ∀ j < i, ∀ row, (Assignment.rows s.names ∅)[j]? = some row →
      s.formula.satisfiedBy row = false := by
    intro j hj row hFound
    obtain ⟨hLt, rfl⟩ := List.getElem?_eq_some_iff.1 hFound
    simpa using hBefore j hj
  refine ⟨model, ⟨?_, hModel, ?_⟩, ?_⟩
  · exact Assignment.mem_rows_iff_isRow.1 (List.mem_of_getElem? hAt?)
  · intro other hOther hHolds
    obtain ⟨j, hj, rfl⟩ := List.getElem_of_mem (Assignment.mem_rows_iff_isRow.2 hOther)
    rcases Nat.lt_trichotomy j i with hLt | rfl | hGt
    · rw [hFirst j hLt _ (List.getElem?_eq_getElem hj)] at hHolds
      cases hHolds
    · exact .inl hAt
    · have hPairs := List.pairwise_iff_getElem.1 (Assignment.pairwise_rows h.nodup hNew)
      exact .inr (hAt ▸ hPairs i j hi hj hGt)
  · rw [Formula.scanRows_of_first hAt? hModel hFirst, Nat.zero_add,
      Assignment.eq_place_of_getElem? h.nodup hNew hAt?]

end Covers

/-- What the solver answers. It gives up a formula with an empty clause, tries all rows if there is
no model among them, and otherwise finds the first model, with the number of rows up to it. -/
theorem solve_firstModel {s : TruthTableSolver} (h : s.Covers) :
    ([] ∈ s.formula → s.solve = .ok (none, { s with checked := 0 })) ∧
    ([] ∉ s.formula →
      (∀ row, Assignment.IsRow s.names row → s.formula.satisfiedBy row = false) →
      s.solve = .ok (none, { s with checked := 2 ^ s.names.length })) ∧
    ([] ∉ s.formula →
      (∃ row, Assignment.IsRow s.names row ∧ s.formula.satisfiedBy row = true) →
      ∃ model, s.IsFirstModel model ∧ s.solve = .ok (some model, { s with
        checked := 1 + ∑ i : Fin s.names.length,
          if model[s.names[i]]? = some false then 2 ^ (s.names.length - (i + 1)) else 0 })) := by
  refine ⟨fun hClause => ?_, fun hClauses hNone => ?_, fun hClauses hSome => ?_⟩
  · have hAny : s.formula.any List.isEmpty = true := List.any_eq_true.2 ⟨[], hClause, rfl⟩
    rw [solve, hAny]
    rfl
  · apply h.solve_eq hClauses
    have hRows : ∀ row ∈ Assignment.rows s.names ∅, s.formula.satisfiedBy row = false :=
      fun row hRow => hNone row (Assignment.mem_rows_iff_isRow.1 hRow)
    rw [Formula.scanRows_of_none hRows, Assignment.length_rows, Nat.zero_add]
  · obtain ⟨row, hRow, hTrue⟩ := hSome
    obtain ⟨model, hFirst, hScan⟩ := h.exists_firstModel hRow hTrue
    refine ⟨model, hFirst, ?_⟩
    rw [← Assignment.place_eq_sum, Nat.add_comm]
    exact h.solve_eq hClauses hScan

/-- A table with a column for each variable of the fork. -/
def forkTable : TruthTableSolver :=
  { formula := .fork, names := ["a", "b", "c", "d", "e"], checked := 0 }

/-- All rows in which `a` is true are passed before this one. -/
def forkFirst : Assignment :=
  ((((∅ : Assignment).insert "a" false).insert "b" true |>.insert "c" true).insert "d" true).insert
    "e" true

theorem solve_firstModel_fork : forkTable.Covers ∧ [] ∉ forkTable.formula ∧
    forkTable.IsFirstModel forkFirst ∧
    forkTable.solve = .ok (some forkFirst, { forkTable with checked := 17 }) := by
  have hCovers : forkTable.Covers := ⟨by decide +kernel, by decide +kernel⟩
  have hClauses : [] ∉ forkTable.formula := by decide
  have hRow : Assignment.IsRow forkTable.names forkFirst :=
    Assignment.mem_rows_iff_isRow.1 (by decide +kernel)
  have hTrue : forkTable.formula.satisfiedBy forkFirst = true := by decide +kernel
  obtain ⟨model, hFirst, hSolve⟩ :=
    (solve_firstModel hCovers).2.2 hClauses ⟨forkFirst, hRow, hTrue⟩
  have hRun : forkTable.solve.toOption.map (·.1) = some (some forkFirst) := by decide +kernel
  rw [hSolve] at hRun
  obtain rfl : model = forkFirst := Option.some.inj (Option.some.inj hRun)
  exact ⟨hCovers, hClauses, hFirst, hSolve⟩

end TruthTableSolver

end SatLab
