import Mathlib.Data.List.Flatten
import SatLab.Proofs.Benchmark.UpkeepRun

/-! The result table mirrors the statistics. After every call that comes to its end, or that an
instance stops which cannot be read, it has the rows of the records, in some order, and a record has
a row if its folder is completed and has times. -/

namespace SatLab

namespace SummaryRow

/-- What a row is about: a solver and a folder. -/
def key (r : SummaryRow) : String × String := (r.solver, r.folder)

end SummaryRow

namespace FolderStatistics

/-- A record has one row if it is completed and has times, and no row otherwise. -/
structure Summarized (label folder : String) (s : FolderStatistics) : Prop where
  keys : ∀ row ∈ s.rows, row.key = (label, folder)
  count : s.rows.length = if s.completed ∧ s.times ≠ [] then 1 else 0

namespace Summarized

variable {label folder : String} {s : FolderStatistics} (h : s.Summarized label folder)

include h

/-- A folder that is not completed has no row. -/
theorem rows_eq_nil (hOpen : s.completed = false) : s.rows = [] := by
  have hCount := h.count
  rw [if_neg (by simp [hOpen])] at hCount
  exact List.eq_nil_of_length_eq_zero hCount

/-- A folder has a row exactly when it is completed and some instance of it was solved in time. -/
theorem exists_row_iff : (∃ row, row ∈ s.rows) ↔ s.completed = true ∧ s.times ≠ [] := by
  rw [← List.length_pos_iff_exists_mem, h.count]
  split
  · next hBoth => exact iff_of_true Nat.one_pos hBoth
  · next hBoth => exact iff_of_false (Nat.lt_irrefl 0) hBoth

/-- The rows are about one solver and folder, and there is at most one. -/
theorem keys_sublist : (s.rows.map SummaryRow.key).Sublist [(label, folder)] := by
  have hKeys := h.keys
  have hCount := h.count
  cases hRows : s.rows with
  | nil => exact List.nil_sublist _
  | cons row rows =>
      rw [hRows] at hKeys hCount
      have hNone : rows = [] := by
        rw [List.length_cons] at hCount
        split at hCount
        · exact List.eq_nil_of_length_eq_zero (Nat.succ.inj hCount)
        · cases hCount
      rw [hNone, List.map_singleton, hKeys row List.mem_cons_self]

end Summarized

/-- A record that is not completed has no row. -/
theorem summarized_of_open {label folder : String} {s : FolderStatistics} (hRows : s.rows = [])
    (hOpen : s.completed = false) : s.Summarized label folder where
  keys := by
    rw [hRows]
    exact List.forall_mem_nil _
  count := by
    rw [hRows, if_neg (by simp [hOpen])]
    rfl

end FolderStatistics

namespace Benchmark

/-- The fault does not come from numbers that are too large or too long. -/
def Fault.NoMisuse (stop : Fault) : Prop := ∀ fault, stop ≠ .misuse fault

/-- A run that can only be stopped by its files summarizes every folder it completes. -/
theorem Campaign.upholds_summarized (c : Campaign) (start : Workbench) :
    c.Upholds start Fault.NoMisuse fun _ label folder s => s.Summarized label folder where
  grows := fun _ hs => hs
  fresh := fun _ _ _ _ _ => FolderStatistics.summarized_of_open rfl rfl
  step := by
    intro w w' s s' _ k _ group _ hOpen hStep hs
    have hRows := hs.rows_eq_nil hOpen
    cases hStep with
    | @deal o =>
        exact FolderStatistics.summarized_of_open (by rw [FolderStatistics.deal_rows, hRows])
          (by rw [FolderStatistics.deal_completed, hOpen])
    | giveUp => exact FolderStatistics.summarized_of_open hRows hOpen
    | timeless _ hTimes =>
        refine ⟨hs.keys, ?_⟩
        simp [hRows, hTimes]
    | summarized _ hTimes hSolver hFolder =>
        refine ⟨?_, ?_⟩
        · rw [hRows, List.nil_append, List.forall_mem_singleton, SummaryRow.key, hSolver, hFolder]
          rfl
        · simp [hRows, hTimes]
    | unsummarized _ _ hEnds => exact absurd rfl (hEnds _)

namespace Ledger

variable {l : Ledger}

/-- The solvers and folders that have records. -/
def keys (l : Ledger) : List (String × String) :=
  l.flatMap fun entry => entry.2.map fun record => (entry.1, record.1)

/-- In a ledger of distinct keys no pair of solver and folder comes twice. -/
theorem Distinct.nodup_keys (h : l.Distinct) : l.keys.Nodup := by
  rw [keys, List.nodup_flatMap]
  refine ⟨fun entry hEntry => ?_, ?_⟩
  · have hFolders := (h.folders entry hEntry).map (Prod.mk_right_injective entry.1)
    rwa [List.map_map] at hFolders
  · have hLabels := List.pairwise_map.1 h.labels
    refine hLabels.imp fun {a b} hNe => List.disjoint_left.2 fun key hLeft hRight => ?_
    obtain ⟨_, -, rfl⟩ := List.mem_map.1 hLeft
    obtain ⟨_, -, hKey⟩ := List.mem_map.1 hRight
    exact hNe (congrArg Prod.fst hKey).symm

section Rows

variable (h : l.Distinct) (hRecords : l.All fun label folder s => s.Summarized label folder)

include h hRecords

/-- No solver and folder has two rows. -/
theorem nodup_rows : (l.rows.map SummaryRow.key).Nodup := by
  refine h.nodup_keys.sublist ?_
  rw [rows, List.map_flatMap]
  refine .flatMap_right l fun entry hEntry => ?_
  rw [List.map_flatMap, List.map_eq_flatMap]
  refine .flatMap_right entry.2 fun record hRecord => ?_
  refine (hRecords entry.1 record.1 record.2 ?_).keys_sublist
  rw [record?, Document.lookup_of_mem h.labels hEntry]
  exact Document.lookup_of_mem (h.folders entry hEntry) hRecord

/-- There is a row for the folders that are completed and have times. -/
theorem exists_row_iff (label folder : String) : (∃ row ∈ l.rows, row.key = (label, folder)) ↔
    ∃ s, l.record? label folder = some s ∧ s.completed = true ∧ s.times ≠ [] := by
  constructor
  · rintro ⟨row, hRow, hKey⟩
    obtain ⟨label', folder', s, hFound, hRow⟩ := h.exists_of_mem_rows hRow
    have hs := hRecords _ _ _ hFound
    rw [hs.keys row hRow] at hKey
    cases hKey
    exact ⟨s, hFound, hs.exists_row_iff.1 ⟨row, hRow⟩⟩
  · rintro ⟨s, hFound, hBoth⟩
    have hs := hRecords _ _ _ hFound
    obtain ⟨row, hRow⟩ := hs.exists_row_iff.2 hBoth
    exact ⟨row, mem_rows hFound hRow, hs.keys row hRow⟩

end Rows

end Ledger

namespace Campaign

/-- What every call keeps that is not stopped by a misuse. -/
theorem kept_summarized {calls : List (Campaign × Workbench)} {w : Workbench}
    (h : History (fun _ => True) Fault.NoMisuse calls w) :
    ∃ l, Kept (Sound (fun _ label folder s => s.Summarized label folder) w) w l := by
  obtain ⟨l, hKept⟩ := h.kept
    (R := fun _ label folder s => s.Coherent ∧ s.Summarized label folder)
    fun {calls w c l} hKept _ hEnds => by
      obtain ⟨-, -, hLeaves⟩ := (c.upholds_summarized w).run
        (hKept.mono fun _ _ _ hs => ⟨hs.1, hs.2⟩)
      obtain ⟨l', hl'⟩ := hLeaves hEnds
      exact ⟨l', hl'.kept.mono fun _ _ _ hs => ⟨hs.coherent, hs.good⟩⟩
  exact ⟨l, hKept.mono fun _ _ _ hs => ⟨hs.1, hs.2⟩⟩

/-- After every call that comes to its end, or that is stopped by an instance which cannot be read,
the table of this call has the rows of the records, in some order; no solver and folder has two
rows, and one has a row if and only if it is completed and has times. Before the call there may be
any others, of other campaigns, with restarts in between, as long as none is stopped by numbers that
are too large or too long; there is no backup before the first one. -/
theorem run_mirrors {calls : List (Campaign × Workbench)} {w : Workbench}
    (h : History (fun _ => True) Fault.NoMisuse calls w) (c : Campaign)
    (hEnd : ∀ stop, (c.run w).fault = some stop → ∃ e, stop = .formula e) :
    let run := c.run w
    ∃ (l : Ledger) (rows : List SummaryRow), run.value.statistics = l.statistics ∧ l.Distinct ∧
      run.value.files.read (resultTable w.files) = .ok (Utf8.encode (tableText rows)) ∧
      rows.Perm l.rows ∧ (rows.map SummaryRow.key).Nodup ∧
      (∀ label folder s, l.record? label folder = some s →
        ∀ row ∈ s.rows, row.key = (label, folder)) ∧
      ∀ label folder, (∃ row ∈ rows, row.key = (label, folder)) ↔
        ∃ s, l.record? label folder = some s ∧ s.completed = true ∧ s.times ≠ [] := by
  intro run
  obtain ⟨first, hFirst⟩ := kept_summarized h
  obtain ⟨-, -, hLeaves⟩ := (c.upholds_summarized w).run hFirst
  obtain ⟨l, hl⟩ := hLeaves fun stop hStop fault hMisuse => by
    obtain ⟨e, rfl⟩ := hEnd stop hStop
    cases hMisuse
  have hRecords : l.All fun label folder s => s.Summarized label folder :=
    hl.kept.records.imp fun _ _ _ hs => hs.good
  rcases hl.table with ⟨e, hAccess⟩ | ⟨n, hPath, hTable⟩
  · obtain ⟨e', hFormula⟩ := hEnd _ hAccess
    cases hFormula
  · obtain ⟨rows, hPerm, hText⟩ := hTable.table
    refine ⟨l, rows, hl.kept.statistics, hl.kept.distinct, ?_, hPerm, ?_, ?_, ?_⟩
    · rw [hPath]
      exact FileTree.read_inFolder isName_resultFolder (isName_tableName hTable.short)
        hTable.folder hText
    · exact (hPerm.map _).nodup_iff.2 (Ledger.nodup_rows hl.kept.distinct hRecords)
    · exact fun label folder s hs => (hRecords label folder s hs).keys
    · intro label folder
      rw [← Ledger.exists_row_iff hl.kept.distinct hRecords]
      exact exists_congr fun row => and_congr_left' hPerm.mem_iff

/-- The second process goes on from the files of the first one. -/
theorem run_mirrors_twice :
    let left := (twice.run (.ofFiles twiceFiles)).value.files
    let run := twice.run (.ofFiles left)
    History (fun _ => True) Fault.NoMisuse [(twice, .ofFiles twiceFiles)] (.ofFiles left) ∧
      run.fault = none ∧
      ∃ (l : Ledger) (rows : List SummaryRow), run.value.statistics = l.statistics ∧
        run.value.files.read (resultTable left) = .ok (Utf8.encode (tableText rows)) ∧
        rows.Perm l.rows ∧ (rows.map SummaryRow.key).Nodup := by
  intro left run
  have hChain : twice.Interrupted twiceFiles 1 left := .stopped .never List.mem_cons_self
  have hEnd : run.fault = none := fault_twice hChain (Nat.one_lt_pow (by decide) (by decide))
  have hHistory := history_twice (fun _ => True) trivial Fault.NoMisuse
  obtain ⟨l, rows, hStatistics, -, hTable, hPerm, hNodup, -⟩ :=
    run_mirrors hHistory twice (by
      intro stop hStop
      rw [show (twice.run (.ofFiles left)).fault = none from hEnd] at hStop
      cases hStop)
  exact ⟨hHistory, hEnd, l, rows, hStatistics, hTable, hPerm, hNodup⟩

end Campaign

end Benchmark

end SatLab
