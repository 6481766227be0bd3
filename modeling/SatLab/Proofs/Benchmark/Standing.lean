import SatLab.Benchmark.Campaign
import SatLab.Proofs.Benchmark.FolderHistory

/-! What stays true of a bench while a campaign runs: the files it was given are as they were, the
backup can be gone on from, and the table shows the rows of the statistics. -/

namespace SatLab

/-- Texts are encoded one after the other. -/
theorem Utf8.encode_append (text more : String) :
    Utf8.encode (text ++ more) = Utf8.encode text ++ Utf8.encode more := by
  simp [Utf8.encode_eq_flatMap]

namespace SummaryRow

/-- A row as the table shows it. -/
def line (r : SummaryRow) : String :=
  String.ofList (Sheet.rowChars
    [r.solver, r.folder, r.avgTime, r.minTime, r.maxTime, r.avgMemory, r.minMemory, r.maxMemory,
      toString r.inconclusive, toString r.failed, r.decisions])

/-- A short whole number is written in decimal. -/
theorem cellText_int {k : Nat} (h : FolderStatistics.Short k) :
    Sheet.cellText (.int k) = .ok (toString k) := by
  have hShown : (Document.int k).hasTooManyDigits = false := h
  have hChars : (Document.int k).shownChars = (toString k).toList := by
    rw [Document.int, Document.shownChars]
    rfl
  have hText : (Document.int k).shown = .ok (String.ofList (Document.int k).shownChars) := by
    unfold Document.shown
    rw [if_neg (by rw [hShown]; exact Bool.false_ne_true)]
    rfl
  rw [← String.ofList_toList (s := toString k), ← hChars, ← hText]
  rfl

/-- The row of short counts is written as the row's line. -/
theorem rowText_cells {r : SummaryRow} (hInconclusive : FolderStatistics.Short r.inconclusive)
    (hFailed : FolderStatistics.Short r.failed) : Sheet.rowText r.cells = .ok r.line := by
  have hText : ∀ text, Sheet.cellText (.text text) = .ok text := fun _ => rfl
  have hCells : r.cells.mapM Sheet.cellText = .ok
      [r.solver, r.folder, r.avgTime, r.minTime, r.maxTime, r.avgMemory, r.minMemory, r.maxMemory,
        toString r.inconclusive, toString r.failed, r.decisions] := by
    simp only [cells, List.mapM_cons, List.mapM_nil, hText, cellText_int hInconclusive,
      cellText_int hFailed]
    rfl
  rw [Sheet.rowText, hCells]
  rfl

/-- A whole number with too many digits is refused. -/
theorem cellText_long {k : Nat} (h : ¬FolderStatistics.Short k) :
    Sheet.cellText (.int k) = .error .tooManyDigits := by
  have hDigits : (Document.int k).hasTooManyDigits = true := by
    rw [← Bool.not_eq_false]
    exact h
  have hShown : (Document.int k).shown = .error .tooManyDigits := by
    unfold Document.shown
    rw [if_pos hDigits]
  exact hShown

/-- A row with a count of too many digits is refused as a whole. -/
theorem rowText_long {r : SummaryRow}
    (h : ¬(FolderStatistics.Short r.inconclusive ∧ FolderStatistics.Short r.failed)) :
    Sheet.rowText r.cells = .error .tooManyDigits := by
  have hText : ∀ text, Sheet.cellText (.text text) = .ok text := fun _ => rfl
  have hCells : r.cells.mapM Sheet.cellText = .error .tooManyDigits := by
    simp only [cells, List.mapM_cons, List.mapM_nil, hText]
    by_cases hInconclusive : FolderStatistics.Short r.inconclusive
    · rw [cellText_int hInconclusive, cellText_long fun hFailed => h ⟨hInconclusive, hFailed⟩]
      rfl
    · rw [cellText_long hInconclusive]
      rfl
  rw [Sheet.rowText, hCells]
  rfl

end SummaryRow

namespace Benchmark

/-- The rows of a ledger in the order of the table. -/
def Ledger.rows (l : Ledger) : List SummaryRow :=
  l.flatMap fun entry => entry.2.flatMap fun record => record.2.rows

/-- The result table with its columns and rows. -/
def tableText (rows : List SummaryRow) : String :=
  String.ofList (Sheet.rowChars tableColumns) ++ String.join (rows.map SummaryRow.line)

/-- One more row makes the table longer by its line. -/
theorem tableText_concat (rows : List SummaryRow) (row : SummaryRow) :
    tableText (rows ++ [row]) = tableText rows ++ row.line := by
  simp [tableText, String.append_assoc]

/-- A tree without results: there is no directory for them, or an empty one. -/
structure NoResults (files : FileTree) : Prop where
  folder : files[resultFolder]? = none ∨ files[resultFolder]? = some .directory
  empty : ∀ name, files[FileTree.inFolder resultFolder name]? = none

/-- A backup that runs can have left behind: none, a good ledger, or the part of one that could not
be written. -/
inductive BackupLeft (Good : Ledger → Prop) : Option FileEntry → Prop where
  | none : BackupLeft Good none
  | ledger {l : Ledger} (hGood : Good l) (hDistinct : l.Distinct) (hWritable : l.Writable) :
      BackupLeft Good (some (.file (Utf8.encode l.text)))
  | cut {text : String} (h : IsCut text) :
      BackupLeft Good (some (.file (Utf8.encode text)))

/-- A tree that runs can have left behind: it has the files it was given, the backup can be gone on
from, and the tables from a number on are not there. -/
structure Leftover (files : FileTree) (Good : Ledger → Prop) (count : Nat) (t : FileTree) :
    Prop where
  keeps : files.Keeps t
  folder : t[resultFolder]? = none ∨ t[resultFolder]? = some .directory
  tables : ∀ n, count ≤ n → t[tableAt n]? = none
  backup : BackupLeft Good t[backupPath]?

/-- No table of results has the path of the backup. -/
theorem tableAt_ne_backup (n : Nat) : tableAt n ≠ backupPath := by
  rw [backupPath_eq]
  intro hEq
  have hList := congrArg String.toList hEq
  cases n with
  | zero => exact absurd hList (by decide)
  | succ n =>
      rw [tableAt, FileTree.inFolder, String.toList_append, tableName_toList] at hList
      simp [FileTree.inFolder] at hList

/-- The folder of results is none of the files in it. -/
theorem resultFolder_ne_inFolder (name : String) :
    resultFolder ≠ FileTree.inFolder resultFolder name := by
  intro hEq
  have hList := congrArg String.toList hEq
  simp [FileTree.inFolder] at hList

namespace Leftover

variable {files t : FileTree} {Good : Ledger → Prop} {count : Nat}

/-- Files without results are left over from no runs. -/
theorem of_noResults (h : NoResults files) : Leftover files Good 0 files where
  keeps := .refl files
  folder := h.folder
  tables := fun n _ => h.empty (tableName n)
  backup := by
    have hNone : files[backupPath]? = none := by
      rw [backupPath_eq]
      exact h.empty _
    rw [hNone]
    exact .none

theorem mono (h : Leftover files Good count t) {more : Nat} (hLe : count ≤ more) :
    Leftover files Good more t :=
  { h with tables := fun n hn => h.tables n (Nat.le_trans hLe hn) }

/-- Making the folder of results leaves files that a run may leave. -/
theorem makeFolder (h : Leftover files Good count t) (hMissing : t[resultFolder]? = none) :
    Leftover files Good count (t.insert resultFolder .directory) := by
  have hFiles : files[resultFolder]? = none := by
    cases hEntry : files[resultFolder]? with
    | none => rfl
    | some e =>
        rw [h.keeps _ e hEntry] at hMissing
        cases hMissing
  have hOther : ∀ name, (t.insert resultFolder .directory)[FileTree.inFolder resultFolder name]? =
      t[FileTree.inFolder resultFolder name]? := by
    intro name
    rw [FileTree.getElem?_insert_entry, if_neg (resultFolder_ne_inFolder name)]
  refine ⟨h.keeps.insert hFiles _, .inr ?_, fun n hn => ?_, ?_⟩
  · rw [FileTree.getElem?_insert_entry, if_pos rfl]
  · exact (hOther (tableName n)).trans (h.tables n hn)
  · have hBackup := h.backup
    rw [backupPath_eq] at hBackup ⊢
    rwa [hOther]

/-- A table of a run already counted leaves files that runs may leave. -/
theorem insertTable (h : Leftover files Good count t) (hFiles : NoResults files) {n : Nat}
    (hn : n < count) (content : List UInt8) :
    Leftover files Good count (t.insert (tableAt n) (.file content)) := by
  have hOther : tableAt n ≠ resultFolder := (resultFolder_ne_inFolder _).symm
  refine ⟨h.keeps.insert (hFiles.empty (tableName n)) _, ?_, fun m hm => ?_, ?_⟩
  · rw [FileTree.getElem?_insert_entry, if_neg hOther]
    exact h.folder
  · rw [FileTree.getElem?_insert_entry, if_neg fun hEq => ?_]
    · exact h.tables m hm
    · have := tableAt_injective hEq
      omega
  · rw [FileTree.getElem?_insert_entry, if_neg (tableAt_ne_backup n)]
    exact h.backup

/-- A backup as runs write it leaves files that runs may leave. -/
theorem insertBackup (h : Leftover files Good count t) (hFiles : NoResults files)
    {content : List UInt8} (hContent : BackupLeft Good (some (.file content))) :
    Leftover files Good count (t.insert backupPath (.file content)) := by
  have hNew : files[backupPath]? = none := by
    rw [backupPath_eq]
    exact hFiles.empty _
  refine ⟨h.keeps.insert hNew _, ?_, fun m hm => ?_, ?_⟩
  · have hOther : backupPath ≠ resultFolder := by decide
    rw [FileTree.getElem?_insert_entry, if_neg hOther]
    exact h.folder
  · rw [FileTree.getElem?_insert_entry, if_neg (tableAt_ne_backup m).symm]
    exact h.tables m hm
  · rwa [FileTree.getElem?_insert_entry, if_pos rfl]

/-- The backup is no directory. -/
theorem backup_ne (h : Leftover files Good count t) : t[backupPath]? ≠ some .directory := by
  have hBackup := h.backup
  intro hEntry
  rw [hEntry] at hBackup
  cases hBackup

end Leftover

/-- The backup holds a ledger. -/
def Saved (w : Workbench) (l : Ledger) : Prop :=
  w.files[backupPath]? = some (.file (Utf8.encode l.text))

/-- A bench at work on a ledger: every tree there has been can be gone on from, and the table shows
the rows of the ledger. -/
structure Standing (files : FileTree) (Good : Ledger → Prop) (count n : Nat) (w : Workbench)
    (l : Ledger) : Prop where
  statistics : w.statistics = l.statistics
  leftover : ∀ t ∈ w.snapshots, Leftover files Good count t
  folder : w.files[resultFolder]? = some .directory
  table : w.files[tableAt n]? = some (.file (Utf8.encode (tableText l.rows)))

/-- Every row of the ledger can be printed. -/
def Ledger.Printable (l : Ledger) : Prop :=
  ∀ row ∈ l.rows, FolderStatistics.Short row.inconclusive ∧ FolderStatistics.Short row.failed

/-- A ledger that can be written to the backup has rows that can be printed. -/
theorem Ledger.Writable.printable {l : Ledger} (h : l.Writable) : l.Printable := by
  intro row hRow
  obtain ⟨entry, hEntry, hRow⟩ := List.mem_flatMap.1 hRow
  obtain ⟨record, hRecord, hRow⟩ := List.mem_flatMap.1 hRow
  exact (h entry hEntry record hRecord).rows row hRow

/-- The rows that are known are those of the ledger. -/
theorem knownRows_eq {l : Ledger} (h : l.Printable) :
    knownRows l.statistics = .done (String.join (l.rows.map SummaryRow.line)) := by
  have hRows : ∀ rows : List SummaryRow,
      (∀ row ∈ rows, FolderStatistics.Short row.inconclusive ∧ FolderStatistics.Short row.failed) →
      rowsText (rows.map SummaryRow.toDocument) =
        .done (String.join (rows.map SummaryRow.line)) := by
    intro rows
    induction rows with
    | nil => intro _; rfl
    | cons row rows ih =>
        intro hShort
        rw [List.forall_mem_cons] at hShort
        have hRow : rowText row.toDocument = .ok row.line :=
          SummaryRow.rowText_cells hShort.1.1 hShort.1.2
        simp only [List.map_cons, rowsText, hRow, ih hShort.2, Reached.done, String.join_cons]
  have hFolders : ∀ records : List (String × FolderStatistics),
      (∀ row ∈ records.flatMap fun record => record.2.rows,
        FolderStatistics.Short row.inconclusive ∧ FolderStatistics.Short row.failed) →
      foldersText (records.map fun record => (record.1, .recorded record.2)) =
        .done (String.join ((records.flatMap fun record => record.2.rows).map SummaryRow.line)) := by
    intro records
    induction records with
    | nil => intro _; rfl
    | cons record records ih =>
        intro hShort
        rw [List.flatMap_cons, List.forall_mem_append] at hShort
        simp only [List.map_cons, foldersText, FolderRecord.rows, hRows _ hShort.1,
          Reached.done, Reached.bind, ih hShort.2, List.flatMap_cons, List.map_append,
          String.join_append]
  rw [knownRows, Ledger.statistics, Statistics.entries]
  induction l with
  | nil => rfl
  | cons entry l ih =>
      rw [Ledger.Printable, Ledger.rows, List.flatMap_cons, List.forall_mem_append] at h
      have hRest := ih h.2
      simp only [Ledger.entries, List.map_cons, solversText, Ledger.folders, SolverRecord.entries,
        hFolders _ h.1, Reached.done, Reached.bind, Ledger.rows, List.flatMap_cons,
        List.map_append, String.join_append] at hRest ⊢
      rw [hRest]

section Work

variable {files : FileTree} {Good : Ledger → Prop} {count n : Nat} {w : Workbench} {l : Ledger}

/-- What a bench prints and tries does not change where it stands. -/
theorem Standing.change (h : Standing files Good count n w l) {w' : Workbench} {l' : Ledger}
    (hFiles : w'.files = w.files) (hHistory : w'.history = w.history)
    (hStatistics : w'.statistics = l'.statistics) (hRows : l'.rows = l.rows) :
    Standing files Good count n w' l' where
  statistics := hStatistics
  leftover := by
    rw [Workbench.snapshots, hFiles, hHistory]
    exact h.leftover
  folder := by rw [hFiles]; exact h.folder
  table := by rw [hFiles, hRows]; exact h.table

/-- What stands in the middle of a run is what an interruption at this point leaves. -/
theorem Standing.current (h : Standing files Good count n w l) :
    Leftover files Good count w.files :=
  h.leftover _ List.mem_cons_self

/-- The backup is written over. -/
theorem Standing.insertBackup (h : Standing files Good count n w l) (hFiles : NoResults files)
    {content : List UInt8} (hContent : BackupLeft Good (some (.file content))) :
    Standing files Good count n (w.store (w.files.insert backupPath (.file content))) l := by
  have hNext := h.current.insertBackup hFiles hContent
  refine ⟨h.statistics, List.forall_mem_cons.2 ⟨hNext, h.leftover⟩, ?_, ?_⟩
  · have hOther : backupPath ≠ resultFolder := by decide
    exact (FileTree.getElem?_insert_entry ..).trans ((if_neg hOther).trans h.folder)
  · exact (FileTree.getElem?_insert_entry ..).trans
      ((if_neg (tableAt_ne_backup n).symm).trans h.table)

/-- The ledger is saved as a whole if it can be written. -/
theorem Standing.save (h : Standing files Good count n w l) (hFiles : NoResults files)
    (hGood : l.Writable → Good l) (hDistinct : l.Distinct) :
    (l.Writable ∧ ∃ w', w.save = .done w' ∧ Standing files Good count n w' l ∧ Saved w' l) ∨
    (¬l.Writable ∧ ∃ w', w.save = .stopped w' (.misuse .tooManyDigits) ∧
      Standing files Good count n w' l) := by
  have hBackup := h.current.backup_ne
  by_cases hWritable : l.Writable
  · exact .inl ⟨hWritable, _, save_writable h.folder hBackup h.statistics hWritable,
      h.insertBackup hFiles (.ledger (hGood hWritable) hDistinct hWritable),
      (FileTree.getElem?_insert_entry ..).trans (if_pos rfl)⟩
  · obtain ⟨text, hText, hSave⟩ := save_cut h.folder hBackup h.statistics hDistinct hWritable
    exact .inr ⟨hWritable, _, hSave, h.insertBackup hFiles (.cut hText)⟩

variable (hFiles : NoResults files) (hCount : n < count) (hShort : n < 10 ^ 239)

include hFiles hCount in
/-- A table with the rows of a ledger is put into the files. -/
theorem standing_store (hLeftover : ∀ t ∈ w.snapshots, Leftover files Good count t)
    (hFolder : w.files[resultFolder]? = some .directory) :
    Standing files Good count n
      { w.store (w.files.insert (tableAt n) (.file (Utf8.encode (tableText l.rows)))) with
        statistics := l.statistics } l := by
  have hNext := (hLeftover _ List.mem_cons_self).insertTable hFiles hCount
    (Utf8.encode (tableText l.rows))
  have hOther : tableAt n ≠ resultFolder := (resultFolder_ne_inFolder _).symm
  refine ⟨rfl, List.forall_mem_cons.2 ⟨hNext, hLeftover⟩, ?_, ?_⟩
  · exact (FileTree.getElem?_insert_entry ..).trans ((if_neg hOther).trans hFolder)
  · exact (FileTree.getElem?_insert_entry ..).trans (if_pos rfl)

include hShort

/-- Text is added at the end of the table. -/
theorem Standing.append (h : Standing files Good count n w l) (text : String) :
    w.append (tableAt n) text = .ok (w.store (w.files.insert (tableAt n)
      (.file (Utf8.encode (tableText l.rows ++ text))))) := by
  have hName := isName_tableName hShort
  have hTable := h.table
  rw [tableAt] at hTable ⊢
  have hEntry : w.files[FileTree.inFolder resultFolder (tableName n)]? ≠ some .directory := by
    simp [hTable]
  rw [Workbench.append, FileTree.read_inFolder isName_resultFolder hName h.folder hTable]
  simp only [FileTree.write_inFolder isName_resultFolder hName h.folder hEntry,
    Utf8.encode_append]

include hFiles hCount

/-- The table of a run starts with the rows of the ledger the run goes on from. -/
theorem startTable_eq (hStatistics : w.statistics = l.statistics) (hWritable : l.Writable)
    (hLeftover : ∀ t ∈ w.snapshots, Leftover files Good count t)
    (hFolder : w.files[resultFolder]? = some .directory) (hFree : w.files[tableAt n]? = none) :
    ∃ w', startTable w (tableAt n) = .done w' ∧ Standing files Good count n w' l ∧
      w'.attempts = w.attempts ∧ w'.files[backupPath]? = w.files[backupPath]? := by
  have hWrite : w.write (tableAt n) (tableText l.rows) = .ok (w.store (w.files.insert (tableAt n)
      (.file (Utf8.encode (tableText l.rows))))) := by
    rw [tableAt] at hFree ⊢
    rw [Workbench.write, FileTree.write_inFolder isName_resultFolder (isName_tableName hShort)
      hFolder (by simp [hFree])]
  refine ⟨_, ?_, standing_store (l := l) hFiles hCount hLeftover hFolder, rfl, ?_⟩
  · rw [startTable, hStatistics, knownRows_eq hWritable.printable]
    simp only [Reached.done]
    rw [← tableText, hWrite, ← hStatistics]
    rfl
  · exact (FileTree.getElem?_insert_entry ..).trans (if_neg (tableAt_ne_backup n))

end Work

end Benchmark

end SatLab
