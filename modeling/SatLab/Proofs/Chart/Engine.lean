import SatLab.Chart.Plot
import SatLab.Proofs.Sheet.Engine

/-! What is documented of an engine that works on the rows of results. Groups have the different
keys of the rows, each of them once. Means are no flags. Measures are put in ascending order,
missing ones last, and none is lost or repeated. The times of solvers by folders are those of the
rows; beside gaps they are taken in double precision. -/

namespace SatLab

namespace Chart

open Sheet

/-- The different keys among cells. -/
structure KeysOf (same : Cell → Cell → Bool) (cells keys : List Cell) : Prop where
  mem : ∀ k ∈ keys, k ∈ cells
  covers : ∀ c ∈ cells, ∃ k ∈ keys, same k c = true
  distinct : keys.Pairwise fun a b => same a b = false

/-- Whether one height may stand before another one: it is not higher, and nothing that is there
follows a missing height. -/
def MayPrecede (a b : Cell) : Prop :=
  b.isMissing = false → a.isMissing = false ∧ b.lt a = false

/-- How times are adjusted: beside a gap they are taken in double precision. -/
def adjustment (same : Cell → Cell → Bool) (rows : List Result) : Cell → Cell :=
  if hasGap same rows then Cell.widened else id

/-- The entry of a solver and a folder: the time of their row, adjusted, and missing if they have
no row. -/
structure IsEntry (same : Cell → Cell → Bool) (adjust : Cell → Cell) (rows : List Result)
    (solver folder entry : Cell) : Prop where
  present : ∀ row ∈ rows, same solver row.solver = true → same folder row.folder = true →
    entry = adjust row.avgTime
  absent : (∀ row ∈ rows, same solver row.solver = true → same folder row.folder = false) →
    entry = .missing

/-- A line of entries for each solver. -/
def AreEntries (same : Cell → Cell → Bool) (adjust : Cell → Cell) (rows : List Result)
    (solvers folders : List Cell) (values : List (List Cell)) : Prop :=
  List.Forall₂ (fun solver line => List.Forall₂ (IsEntry same adjust rows solver) folders line)
    solvers values

/-- The grid of rows: all solvers, all folders, and their entries. -/
structure IsPivot (same : Cell → Cell → Bool) (rows : List Result) (grid : Grid) : Prop where
  solvers : KeysOf same (rows.map Result.solver) grid.solvers
  folders : KeysOf same (rows.map Result.folder) grid.folders
  entries : AreEntries same (adjustment same rows) rows grid.solvers grid.folders grid.values

/-- A grid with solvers in an order, of which each has the line of the same one. -/
structure IsReindexed (same : Cell → Cell → Bool) (grid : Grid) (order : List Cell)
    (ordered : Grid) : Prop where
  solvers : ordered.solvers = order
  folders : ordered.folders = grid.folders
  lines : List.Forall₂ (fun solver line => ∃ entry ∈ grid.solvers.zip grid.values,
    same solver entry.1 = true ∧ line = entry.2) order ordered.values

/-- Rows of which each has a solver and a folder of its own. -/
structure Keyed (same : Cell → Cell → Bool) (rows : List Result) : Prop where
  solver : ∀ row ∈ rows, row.solver.isMissing = false
  folder : ∀ row ∈ rows, row.folder.isMissing = false
  distinct : rows.Pairwise fun a b => (same a.solver b.solver && same a.folder b.folder) = false

/-- What is documented of an engine. -/
structure Engine.Lawful (e : Engine) : Prop where
  sheet : e.toEngine.Lawful
  same_self : ∀ {a : Cell}, a.IsDefined → e.same a a = true
  same_symm : ∀ {a b : Cell}, e.same a b = true → e.same b a = true
  same_trans : ∀ {a b c : Cell}, e.same a b = true → e.same b c = true → e.same a c = true
  /-- Groups have all keys but missing ones. -/
  keys : ∀ cells, (∀ c ∈ cells, c.IsDefined) →
    KeysOf e.same (cells.filter fun c => !c.isMissing) (e.keys cells)
  /-- A mean is a number of double precision. -/
  mean : ∀ cells, (∀ c ∈ cells, c.IsNumeric) →
    e.mean cells = .missing ∨ ∃ x, x ≠ .undefined ∧ e.mean cells = .real x
  least : ∀ cells, (∀ c ∈ cells, c.IsNumeric) → (e.least cells).IsNumeric
  largest : ∀ cells, (∀ c ∈ cells, c.IsNumeric) → (e.largest cells).IsNumeric
  /-- Two flags have no difference. -/
  minus_flags : ∀ a b, e.minus (.flag a) (.flag b) = .error .flagDifference
  /-- Any other numbers have one. -/
  minus_numbers : ∀ {a b : Cell}, a.IsNumeric → b.IsNumeric →
    ¬((∃ x, a = .flag x) ∧ ∃ y, b = .flag y) → ∃ d, e.minus a b = .ok d
  /-- Measures are sorted. -/
  perm_ascending : ∀ ms, (e.ascending ms).Perm ms
  pairwise_ascending : ∀ ms, (∀ m ∈ ms, m.average.IsNumeric) →
    (e.ascending ms).Pairwise fun a b => MayPrecede a.average b.average
  /-- Rows with different keys are reshaped. -/
  pivot : ∀ rows, (∀ row ∈ rows, row.solver.IsDefined ∧ row.folder.IsDefined) →
    Keyed e.same rows → ∃ grid, e.pivot rows = .ok grid ∧ IsPivot e.same rows grid
  /-- Lines are found by their solvers. -/
  reindex : ∀ (grid : Grid) (solvers : List Cell), grid.values.length = grid.solvers.length →
    (∀ solver ∈ solvers, ∃ other ∈ grid.solvers, e.same solver other = true) →
    IsReindexed e.same grid solvers (e.reindex grid solvers)

namespace KeysOf

variable {same : Cell → Cell → Bool} {cells keys keys' : List Cell}

/-- The keys of some cells are their keys in any order. -/
theorem perm (hSymm : ∀ {a b}, same a b = true → same b a = true) (h : KeysOf same cells keys)
    (hPerm : keys'.Perm keys) : KeysOf same cells keys' where
  mem := fun k hk => h.mem k (hPerm.mem_iff.1 hk)
  covers := by
    intro c hc
    obtain ⟨k, hk, hSame⟩ := h.covers c hc
    exact ⟨k, hPerm.mem_iff.2 hk, hSame⟩
  distinct := by
    refine (hPerm.pairwise_iff fun {a b} hDiffer => ?_).2 h.distinct
    rw [Bool.eq_false_iff] at hDiffer ⊢
    exact fun hSame => hDiffer (hSymm hSame)

/-- The different keys of cells are as many in one list as in any other. -/
theorem length_le (h : KeysOf same cells keys) (h' : KeysOf same cells keys')
    (hSymm : ∀ {a b}, same a b = true → same b a = true)
    (hTrans : ∀ {a b c}, same a b = true → same b c = true → same a c = true) :
    keys.length ≤ keys'.length := by
  have hOther : ∀ k ∈ keys, ∃ k' ∈ keys', same k' k = true := fun k hk => h'.covers k (h.mem k hk)
  choose! other hMem hSame using hOther
  -- Two keys with the same counterpart would be the same key.
  have hNodup : (keys.map other).Nodup := by
    rw [List.Nodup, List.pairwise_map]
    refine h.distinct.imp_of_mem fun {a b} ha hb hDiffer hEqual => ?_
    have hBoth : same a b = true := hTrans (hSymm (hSame a ha)) (hEqual ▸ hSame b hb)
    rw [hDiffer] at hBoth
    cases hBoth
  have hSubset : keys.map other ⊆ keys' := List.forall_mem_map.2 hMem
  calc keys.length = (keys.map other).length := (List.length_map _).symm
    _ ≤ keys'.length := (List.subperm_of_subset hNodup hSubset).length_le

end KeysOf

/-- Equal solvers have equal entries. -/
theorem IsEntry.congr {same : Cell → Cell → Bool} {adjust : Cell → Cell} {rows : List Result}
    {solver other folder entry : Cell} (hSymm : ∀ {a b}, same a b = true → same b a = true)
    (hTrans : ∀ {a b c}, same a b = true → same b c = true → same a c = true)
    (h : IsEntry same adjust rows other folder entry) (hSame : same solver other = true) :
    IsEntry same adjust rows solver folder entry where
  present := fun row hRow hSolver => h.present row hRow (hTrans (hSymm hSame) hSolver)
  absent := fun hAbsent => h.absent fun row hRow hOther =>
    hAbsent row hRow (hTrans hSame hOther)

/-! ### The columns of rows -/

/-- The columns that rows are made of. -/
def resultColumns : List (String × (Result → Cell)) :=
  [("solver", Result.solver), ("folder", Result.folder), ("avg_time", Result.avgTime),
    ("min_time", Result.minTime), ("max_time", Result.maxTime), ("avg_mem", Result.avgMemory),
    ("min_mem", Result.minMemory), ("max_mem", Result.maxMemory),
    ("decisions", Result.decisions)]

/-- The rows of a table have its columns. -/
theorem column_of_resultRows {t : Table} {rows : List Result} (h : resultRows t = .ok rows)
    {folder : Nat} (hFolder : t.place "folder" = .ok folder) :
    ∀ entry ∈ resultColumns, ∃ place, t.place entry.1 = .ok place ∧
      rows.map entry.2 = t.column place := by
  obtain ⟨solver, hSolver, h⟩ := bind_eq_ok_iff.1 h
  obtain ⟨avgTime, hAvgTime, h⟩ := bind_eq_ok_iff.1 h
  obtain ⟨minTime, hMinTime, h⟩ := bind_eq_ok_iff.1 h
  obtain ⟨maxTime, hMaxTime, h⟩ := bind_eq_ok_iff.1 h
  obtain ⟨avgMemory, hAvgMemory, h⟩ := bind_eq_ok_iff.1 h
  obtain ⟨minMemory, hMinMemory, h⟩ := bind_eq_ok_iff.1 h
  obtain ⟨maxMemory, hMaxMemory, h⟩ := bind_eq_ok_iff.1 h
  obtain ⟨decisions, hDecisions, ⟨⟩⟩ := bind_eq_ok_iff.1 h
  rw [hFolder]
  simp only [resultColumns, List.forall_mem_cons, List.map_map]
  exact ⟨⟨solver, hSolver, rfl⟩, ⟨folder, hFolder, rfl⟩, ⟨avgTime, hAvgTime, rfl⟩,
    ⟨minTime, hMinTime, rfl⟩, ⟨maxTime, hMaxTime, rfl⟩, ⟨avgMemory, hAvgMemory, rfl⟩,
    ⟨minMemory, hMinMemory, rfl⟩, ⟨maxMemory, hMaxMemory, rfl⟩, ⟨decisions, hDecisions, rfl⟩,
    List.forall_mem_nil _⟩

/-- Rows as they are read: names are defined, and numbers are numbers. -/
structure Typed (rows : List Result) : Prop where
  defined : ∀ row ∈ rows, row.solver.IsDefined ∧ row.folder.IsDefined
  numeric : ∀ entry ∈ resultColumns, entry.1 ∈ numericColumns →
    ∀ row ∈ rows, (entry.2 row).IsNumeric

namespace Engine

variable {e : Engine} {text : List Char} {rows : List Result}

/-- The rows of the results in a text. -/
def readRows (e : Engine) (text : List Char) : Except SheetFault (List Result) := do
  let t ← e.results text
  let _ ← t.place "folder"
  resultRows t

/-- All cells of a column of a text are typed together. -/
def IsWhole (e : Engine) (text : List Char) : Prop :=
  ∃ t, e.read text = .ok t ∧ t.rows.length ≤ e.portion text

namespace Lawful

variable (h : e.Lawful)

include h

/-- The rows read from a table are typed: each column holds cells of its kind. -/
theorem typed_of_readRows (hRows : e.readRows text = .ok rows) : Typed rows := by
  obtain ⟨t, hTable, hRows⟩ := bind_eq_ok_iff.1 hRows
  obtain ⟨folder, hFolder, hRows⟩ := bind_eq_ok_iff.1 hRows
  have hColumns := column_of_resultRows hRows hFolder
  have hDefined : ∀ entry ∈ resultColumns, entry.1 ∉ numericColumns →
      ∀ row ∈ rows, (entry.2 row).IsDefined := by
    intro entry hEntry hName row hRow
    obtain ⟨place, hPlace, hCells⟩ := hColumns entry hEntry
    obtain ⟨whole, hWhole, -, hOther⟩ := h.sheet.column_results hTable hPlace
    refine h.sheet.defined hWhole place _ (hOther hName ?_)
    rw [← hCells]
    exact List.mem_map_of_mem hRow
  refine ⟨fun row hRow => ⟨?_, ?_⟩, fun entry hEntry hName row hRow => ?_⟩
  · exact hDefined ("solver", Result.solver) (by simp [resultColumns]) (by decide) row hRow
  · exact hDefined ("folder", Result.folder) (by simp [resultColumns]) (by decide) row hRow
  · obtain ⟨place, hPlace, hCells⟩ := hColumns entry hEntry
    obtain ⟨whole, -, hNumbers, -⟩ := h.sheet.column_results hTable hPlace
    refine hNumbers hName _ ?_
    rw [← hCells]
    exact List.mem_map_of_mem hRow

/-- If all cells of a column are typed together, so are all folders. -/
theorem exists_kind_of_isWhole (hRows : e.readRows text = .ok rows) (hWhole : e.IsWhole text) :
    ∃ k, ∀ row ∈ rows, row.folder.FitsIn k := by
  obtain ⟨t, hTable, hRows⟩ := bind_eq_ok_iff.1 hRows
  obtain ⟨folder, hFolder, hRows⟩ := bind_eq_ok_iff.1 hRows
  obtain ⟨place, hPlace, hCells⟩ :=
    column_of_resultRows hRows hFolder ("folder", Result.folder) (by simp [resultColumns])
  obtain ⟨read, hRead, -, hOther⟩ := h.sheet.column_results hTable hPlace
  obtain ⟨whole, hSame, hShort⟩ := hWhole
  obtain rfl : read = whole := Except.ok.inj (hRead.symm.trans hSame)
  obtain ⟨k, hk⟩ := h.sheet.oneKind hRead hShort place
  refine ⟨k, fun row hRow => hk _ (hOther (by decide) ?_)⟩
  rw [← hCells]
  exact List.mem_map_of_mem (f := Result.folder) hRow

/-- If no key is missing, all rows are in groups. -/
theorem keysOf_groupsBy {key : Result → Cell}
    (hDefined : ∀ row ∈ rows, (key row).IsDefined)
    (hThere : ∀ row ∈ rows, (key row).isMissing = false) :
    KeysOf e.same (rows.map key) ((e.groupsBy key rows).map Prod.fst) := by
  have hAll : ((rows.map key).filter fun k => !k.isMissing) = rows.map key := by
    rw [List.filter_eq_self, List.forall_mem_map]
    intro row hRow
    rw [hThere row hRow]
    rfl
  have hKeys := h.keys (rows.map key) (List.forall_mem_map.2 hDefined)
  rw [hAll] at hKeys
  rw [groupsBy, List.map_map]
  conv_rhs => rw [show (Prod.fst ∘ fun k => (k, rows.filter fun row => e.same k (key row))) =
    (id : Cell → Cell) from rfl, List.map_id]
  exact hKeys

end Lawful

/-- The rows of a group are rows. -/
theorem mem_of_mem_groupsBy {key : Result → Cell} {group : Cell × List Result}
    (hGroup : group ∈ e.groupsBy key rows) {row : Result} (hRow : row ∈ group.2) : row ∈ rows := by
  obtain ⟨k, -, rfl⟩ := List.mem_map.1 hGroup
  exact List.mem_of_mem_filter hRow

end Engine

end Chart

end SatLab
