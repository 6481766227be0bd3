import SatLab.Chart.Gallery
import SatLab.Proofs.Chart.Engine
import SatLab.Proofs.Sheet.Standard

/-! The engine that groups, orders, and reshapes rows does what is documented of engines. Sorting
neither loses nor repeats a measure, and on numbers the order of heights is total, so that heights
ascend and missing ones come last. -/

namespace SatLab

namespace Sheet.Cell

variable {a b c : Cell}

/-- Only two flags have no difference. -/
theorem difference?_eq_none_iff :
    a.difference? b = none ↔ (∃ x, a = .flag x) ∧ ∃ y, b = .flag y := by
  cases a <;> cases b <;> simp [difference?]

/-- A number that is there has a place in the order of numbers. -/
theorem IsNumeric.cases (h : c.IsNumeric) :
    c = .missing ∨ c.isMissing = false ∧ ∃ n p, c.number? = some n ∧ n.place = some p := by
  cases c with
  | missing => exact .inl rfl
  | flag | signed | unsigned => exact .inr ⟨rfl, _, _, rfl, rfl⟩
  | real x =>
      obtain ⟨p, hp⟩ := Binary64.exists_place fun hx => h.defined (hx ▸ rfl)
      exact .inr ⟨rfl, _, p, rfl, hp⟩
  | text => exact absurd h.noText (by simp [isText])

end Sheet.Cell

namespace Chart

open Sheet

/-! ### Keys -/

/-- The distinct keys of a column are cells of the column. -/
theorem mem_of_mem_distinctKeys {cells : List Cell} {k : Cell} (h : k ∈ distinctKeys cells) :
    k ∈ cells := by
  induction cells with
  | nil => cases h
  | cons c cells ih =>
      rw [distinctKeys, List.mem_cons] at h
      rcases h with rfl | hRest
      · exact List.mem_cons_self
      · exact List.mem_cons_of_mem _ (ih (List.mem_of_mem_filter hRest))

/-- Every defined cell is the same as one of the keys. -/
theorem covers_distinctKeys {cells : List Cell} (h : ∀ c ∈ cells, c.IsDefined) :
    ∀ c ∈ cells, ∃ k ∈ distinctKeys cells, k.same c = true := by
  induction cells with
  | nil => exact List.forall_mem_nil _
  | cons first cells ih =>
      rw [List.forall_mem_cons] at h
      rw [distinctKeys, List.forall_mem_cons]
      refine ⟨⟨first, List.mem_cons_self, Cell.same_self h.1⟩, fun c hc => ?_⟩
      obtain ⟨k, hk, hSame⟩ := ih h.2 c hc
      by_cases hFirst : first.same k = true
      · exact ⟨first, List.mem_cons_self, Cell.same_trans hFirst hSame⟩
      · refine ⟨k, List.mem_cons_of_mem _ (List.mem_filter.2 ⟨hk, ?_⟩), hSame⟩
        simpa using hFirst

/-- No two keys are the same. -/
theorem pairwise_distinctKeys (cells : List Cell) :
    (distinctKeys cells).Pairwise fun a b => a.same b = false := by
  induction cells with
  | nil => exact .nil
  | cons first cells ih =>
      rw [distinctKeys, List.pairwise_cons]
      refine ⟨fun k hk => ?_, ih.filter _⟩
      simpa using (List.mem_filter.1 hk).2

/-- Sorted keys are the different keys of cells. -/
theorem keysOf_sortedKeys {cells : List Cell} (h : ∀ c ∈ cells, c.IsDefined) :
    KeysOf Cell.same cells (sortedKeys cells) := by
  have hDistinct : KeysOf Cell.same cells (distinctKeys cells) :=
    ⟨fun k => mem_of_mem_distinctKeys, covers_distinctKeys h, pairwise_distinctKeys cells⟩
  exact hDistinct.perm Cell.same_symm (List.mergeSort_perm ..)

/-! ### Measures of groups -/

/-- A mean is missing or a real number, and never undefined. -/
theorem groupMean_cases (cells : List Cell) :
    groupMean cells = .missing ∨ ∃ x, x ≠ .undefined ∧ groupMean cells = .real x := by
  rw [groupMean]
  split
  · exact .inl rfl
  · simp only [Cell.ofReal]
    split
    · exact .inl rfl
    · next hDefined =>
        refine .inr ⟨_, fun hUndefined => ?_, rfl⟩
        rw [hUndefined] at hDefined
        exact hDefined rfl

/-- An extreme is one of the cells, if any of them is there. -/
theorem isNumeric_groupExtreme (before : Cell → Cell → Bool) {cells : List Cell}
    (h : ∀ c ∈ cells, c.IsNumeric) : (groupExtreme before cells).IsNumeric := by
  rw [groupExtreme]
  split
  · exact Cell.isNumeric_missing
  · next first rest hKnown =>
      have hKept : ∀ c ∈ first :: rest, c.IsNumeric := fun c hc =>
        h c (List.mem_of_mem_filter (hKnown ▸ hc))
      rw [List.forall_mem_cons] at hKept
      exact List.foldlRecOn rest _ hKept.1 fun chosen hChosen x hx => by
        split
        · exact hKept.2 x hx
        · exact hChosen

/-! ### Heights -/

/-- The place of a height among all heights. Missing ones come last. -/
def heightRank (c : Cell) : WithTop (ℤ ×ₗ ℤ) :=
  match c.number?.bind Number.place with
  | some p => ((toLex p : ℤ ×ₗ ℤ) : WithTop (ℤ ×ₗ ℤ))
  | none => ⊤

/-- Numbers are compared by their places. -/
theorem lt_eq_rank {a b : Cell} {m n : Number} {p q : Int × Int} (ha : a.number? = some m)
    (hp : m.place = some p) (hb : b.number? = some n) (hq : n.place = some q) :
    a.lt b = decide (toLex p < toLex q) := by
  simp only [Cell.lt, ha, hb, Number.lt, hp, hq, Prod.Lex.toLex_lt_toLex]

theorem heightRank_of_place {c : Cell} {n : Number} {p : Int × Int} (hNumber : c.number? = some n)
    (hPlace : n.place = some p) : heightRank c = ((toLex p : ℤ ×ₗ ℤ) : WithTop (ℤ ×ₗ ℤ)) := by
  rw [heightRank, hNumber, Option.bind_some, hPlace]

theorem heightLe_of_present {a b : Cell} (ha : a.isMissing = false) (hb : b.isMissing = false) :
    heightLe a b = !b.lt a := by
  cases a with
  | missing => cases ha
  | _ =>
      cases b with
      | missing => cases hb
      | _ => rfl

/-- On numbers the order of heights is the one of their places. -/
theorem heightLe_iff {a b : Cell} (ha : a.IsNumeric) (hb : b.IsNumeric) :
    heightLe a b = true ↔ heightRank a ≤ heightRank b := by
  rcases ha.cases with rfl | ⟨hThere, m, p, hm, hp⟩
  · rcases hb.cases with rfl | ⟨hThere', n, q, hn, hq⟩
    · exact iff_of_true rfl (le_refl _)
    · rw [heightRank_of_place hn hq]
      cases b with
      | missing => cases hThere'
      | _ => simp [heightLe, heightRank, Cell.number?]
  · rcases hb.cases with rfl | ⟨hThere', n, q, hn, hq⟩
    · cases a with
      | missing => cases hThere
      | _ => simp [heightLe, heightRank, Cell.number?]
    · rw [heightLe_of_present hThere hThere', lt_eq_rank hn hq hm hp, heightRank_of_place hm hp,
        heightRank_of_place hn hq, WithTop.coe_le_coe, ← not_lt]
      simp

/-- An order by heights is one that charts may have. -/
theorem mayPrecede_of_heightLe {a b : Cell} (h : heightLe a b = true) : MayPrecede a b := by
  intro hb
  cases a with
  | missing =>
      cases b with
      | missing => cases hb
      | _ => cases h
  | _ =>
      rw [heightLe_of_present rfl hb] at h
      exact ⟨rfl, by simpa using h⟩

/-- Sorting by height drops and repeats nothing. -/
theorem ascending_perm (measures : List Measured) : (ascending measures).Perm measures :=
  List.mergeSort_perm ..

/-- Sorted heights ascend. -/
theorem pairwise_ascending {measures : List Measured} (h : ∀ m ∈ measures, m.average.IsNumeric) :
    (ascending measures).Pairwise fun a b => MayPrecede a.average b.average := by
  let byRank (a b : Measured) : Bool := decide (heightRank a.average ≤ heightRank b.average)
  have hSame : ∀ a ∈ measures, ∀ b ∈ measures,
      heightLe a.average b.average = byRank (id a) (id b) := by
    intro a ha b hb
    rw [Bool.eq_iff_iff, heightLe_iff (h a ha) (h b hb)]
    exact decide_eq_true_iff.symm
  have hSorted : ascending measures = measures.mergeSort byRank := by
    have hMap := List.map_mergeSort hSame
    rwa [List.map_id, List.map_id] at hMap
  have hPairwise : (measures.mergeSort byRank).Pairwise fun a b => byRank a b = true := by
    refine List.pairwise_mergeSort (fun a b c hab hbc => ?_) (fun a b => ?_) measures
    · exact decide_eq_true (le_trans (of_decide_eq_true hab) (of_decide_eq_true hbc))
    · rw [Bool.or_eq_true]
      exact (le_total _ _).imp decide_eq_true decide_eq_true
  rw [← hSorted] at hPairwise
  refine hPairwise.imp_of_mem fun ha hb hRank => mayPrecede_of_heightLe ?_
  exact (hSame _ ((ascending_perm _).mem_iff.1 ha) _ ((ascending_perm _).mem_iff.1 hb)).trans hRank

/-! ### The comparison -/

section Comparison

variable {rows : List Result}

theorem hasDuplicate_eq_false (h : rows.Pairwise fun a b => sameCell a b = false) :
    hasDuplicate rows = false := by
  induction h with
  | nil => rfl
  | cons hFirst _ ih => simpa [hasDuplicate, ih] using hFirst

/-- The row of a solver and a folder is the one that is found. -/
theorem rowOf?_eq_some (h : rows.Pairwise fun a b => sameCell a b = false) {solver folder : Cell}
    {row : Result} (hRow : row ∈ rows) (hSolver : solver.same row.solver = true)
    (hFolder : folder.same row.folder = true) : rowOf? rows solver folder = some row := by
  induction h with
  | nil => cases hRow
  | @cons first rest hFirst _ ih =>
      rw [rowOf?, List.find?_cons]
      by_cases hFound : (solver.same first.solver && folder.same first.folder) = true
      · rw [hFound]
        rcases List.mem_cons.1 hRow with rfl | hRest
        · rfl
        · -- Two rows that are both the one of a solver and a folder have the same of both.
          obtain ⟨hSolver', hFolder'⟩ := Bool.and_eq_true_iff.1 hFound
          have hSame : sameCell first row = true := Bool.and_eq_true_iff.2
            ⟨Cell.same_trans (Cell.same_symm hSolver') hSolver,
              Cell.same_trans (Cell.same_symm hFolder') hFolder⟩
          rw [hFirst row hRest] at hSame
          cases hSame
      · rw [Bool.eq_false_iff.2 hFound]
        rcases List.mem_cons.1 hRow with rfl | hRest
        · exact absurd (Bool.and_eq_true_iff.2 ⟨hSolver, hFolder⟩) hFound
        · exact ih hRest

/-- A pair has no row exactly when no row has this solver and this folder. -/
theorem rowOf?_eq_none_iff {solver folder : Cell} : rowOf? rows solver folder = none ↔
    ∀ row ∈ rows, solver.same row.solver = true → folder.same row.folder = false := by
  rw [rowOf?, List.find?_eq_none]
  simp only [Bool.and_eq_true, not_and, Bool.not_eq_true]

/-- The entry of a pair is the time of its row, and missing where it has none. -/
theorem isEntry_timeOf (h : rows.Pairwise fun a b => sameCell a b = false) {adjust : Cell → Cell}
    (hAdjust : adjust .missing = .missing) (solver folder : Cell) :
    IsEntry Cell.same adjust rows solver folder (adjust (timeOf rows solver folder)) where
  present := fun row hRow hSolver hFolder => by
    rw [timeOf, rowOf?_eq_some h hRow hSolver hFolder]
    rfl
  absent := fun hNone => by
    rw [timeOf, rowOf?_eq_none_iff.2 hNone]
    exact hAdjust

/-- A missing entry stays missing. -/
theorem adjustment_missing (same : Cell → Cell → Bool) (rows : List Result) :
    adjustment same rows .missing = .missing := by
  rw [adjustment]
  split <;> rfl

/-- Rows with keys of their own have a grid of all their times. -/
theorem exists_isPivot (hDefined : ∀ row ∈ rows, row.solver.IsDefined ∧ row.folder.IsDefined)
    (hKeyed : Keyed Cell.same rows) :
    ∃ grid, pivot rows = .ok grid ∧ IsPivot Cell.same rows grid := by
  have hEntry := isEntry_timeOf hKeyed.distinct (adjustment_missing Cell.same rows)
  rw [pivot, hasDuplicate_eq_false hKeyed.distinct]
  refine ⟨_, rfl, keysOf_sortedKeys (List.forall_mem_map.2 fun row hRow => (hDefined row hRow).1),
    keysOf_sortedKeys (List.forall_mem_map.2 fun row hRow => (hDefined row hRow).2), ?_⟩
  rw [AreEntries, List.forall₂_map_right_iff, List.forall₂_same]
  intro solver _
  rw [List.forall₂_map_right_iff, List.forall₂_same]
  exact fun folder _ => hEntry solver folder

/-- The line of a solver that is there is found. -/
theorem exists_line {grid : Grid} (hLength : grid.values.length = grid.solvers.length)
    {solver other : Cell} (hOther : other ∈ grid.solvers) (hSame : solver.same other = true) :
    ∃ entry ∈ grid.solvers.zip grid.values, solver.same entry.1 = true ∧
      grid.line? solver = some entry.2 := by
  obtain ⟨place, hPlace, rfl⟩ := List.getElem_of_mem hOther
  have hEntry : (grid.solvers[place], grid.values[place]) ∈ grid.solvers.zip grid.values := by
    have hMem := List.getElem_mem (l := grid.solvers.zip grid.values) (n := place)
      (by rw [List.length_zip]; omega)
    rwa [List.getElem_zip] at hMem
  cases hFound : (grid.solvers.zip grid.values).find? fun entry => solver.same entry.1 with
  | none => exact absurd hSame (List.find?_eq_none.1 hFound _ hEntry)
  | some entry =>
      have hEqual := List.find?_some hFound
      refine ⟨entry, List.mem_of_find?_eq_some hFound, hEqual, ?_⟩
      rw [Grid.line?, hFound]
      rfl

/-- Reindexing the grid picks the rows of the solvers asked for, in their order. -/
theorem isReindexed_reindex {grid : Grid} {solvers : List Cell}
    (hLength : grid.values.length = grid.solvers.length)
    (h : ∀ solver ∈ solvers, ∃ other ∈ grid.solvers, solver.same other = true) :
    IsReindexed Cell.same grid solvers (reindex grid solvers) where
  solvers := rfl
  folders := rfl
  lines := by
    rw [reindex, List.forall₂_map_right_iff, List.forall₂_same]
    intro solver hSolver
    obtain ⟨other, hOther, hSame⟩ := h solver hSolver
    obtain ⟨entry, hEntry, hEqual, hLine⟩ := exists_line hLength hOther hSame
    exact ⟨entry, hEntry, hEqual, by rw [hLine, Option.getD_some]⟩

end Comparison

/-! ### The engine -/

theorem distance_flags (a b : Bool) : distance (.flag a) (.flag b) = .error .flagDifference := rfl

/-- Two cells have a distance unless both are truth values. -/
theorem exists_distance {a b : Cell} (h : ¬((∃ x, a = .flag x) ∧ ∃ y, b = .flag y)) :
    ∃ d, distance a b = .ok d := by
  rw [← Cell.difference?_eq_none_iff] at h
  obtain ⟨d, hd⟩ := Option.ne_none_iff_exists'.1 h
  exact ⟨d, by rw [distance, hd]⟩

/-- The engine for charts is lawful. -/
theorem standard_lawful : standard.Lawful where
  sheet := Sheet.standard_lawful
  same_self := Cell.same_self
  same_symm := Cell.same_symm
  same_trans := Cell.same_trans
  keys := fun _ h => keysOf_sortedKeys fun c hc => h c (List.mem_of_mem_filter hc)
  mean := fun cells _ => groupMean_cases cells
  least := fun _ => isNumeric_groupExtreme _
  largest := fun _ => isNumeric_groupExtreme _
  minus_flags := distance_flags
  minus_numbers := fun _ _ => exists_distance
  perm_ascending := ascending_perm
  pairwise_ascending := fun _ => pairwise_ascending
  pivot := fun _ => exists_isPivot
  reindex := fun _ _ => isReindexed_reindex

end Chart

end SatLab
