import SatLab.Benchmark.Workbench
import SatLab.Proofs.Document.CutOff
import SatLab.Proofs.Storage.FreePath
import SatLab.Proofs.Text.Utf8

/-! The backup of statistics that a benchmark has made itself. Such statistics are a ledger: for
every solver its folders, and for every folder its record. A ledger whose numbers can be written is
read back from the backup it was saved in. -/

namespace SatLab

namespace SummaryRow

/-- A row is read back from its document. -/
theorem ofDocument?_toDocument (r : SummaryRow) : ofDocument? r.toDocument = some r := rfl

end SummaryRow

namespace FolderStatistics

/-- Items that are all read back give the list they came from. -/
theorem mapM_some {α β : Type} {f : β → Option α} {g : α → β} (h : ∀ x, f (g x) = some x)
    (xs : List α) : (xs.map g).mapM f = some xs := by
  induction xs with
  | nil => rfl
  | cons x xs ih => simp [List.mapM_cons, h, ih]

/-- Statistics of a folder are read back from their document. -/
theorem ofDocument?_toDocument (s : FolderStatistics) : ofDocument? s.toDocument = some s := by
  have hReals : ∀ xs, reals? (reals xs) = some xs :=
    mapM_some (f := real?) (g := Document.real) fun _ => rfl
  have hRows : rows? (.list (s.rows.map SummaryRow.toDocument)) = some s.rows :=
    mapM_some SummaryRow.ofDocument?_toDocument s.rows
  simp [ofDocument?, toDocument, hReals, hRows, Document.int, Document.real,
    SummaryRow.count?]

/-- An integer that can be written. -/
def Short (k : Int) : Prop := (Number.whole k).hasTooManyDigits = false

/-- No number of the statistics has too many digits to be written. -/
structure Writable (s : FolderStatistics) : Prop where
  inconclusive : Short s.inconclusive
  failed : Short s.failed
  completedTests : Short s.completedTests
  rows : ∀ row ∈ s.rows, Short row.inconclusive ∧ Short row.failed
  consecutiveTimeouts : Short s.consecutiveTimeouts
  decisions : Short s.decisions

/-- Only the two counts of a row are numbers; its other cells are texts and can be written in any
case. -/
theorem hasTooManyDigits_row (r : SummaryRow) :
    r.toDocument.hasTooManyDigits = false ↔ Short r.inconclusive ∧ Short r.failed := by
  simp [SummaryRow.toDocument, SummaryRow.cells, Document.hasTooManyDigits,
    Document.anyTooManyDigits, Document.hasTooManyDigits_int, Short]

/-- Floating-point numbers never have too many digits. -/
theorem hasTooManyDigits_reals (xs : List Binary64) : (reals xs).hasTooManyDigits = false := by
  rw [reals, Document.hasTooManyDigits, Document.anyTooManyDigits_eq_false]
  intro d hd
  obtain ⟨x, -, rfl⟩ := List.mem_map.1 hd
  rfl

/-- A record can be written exactly if its integers are short: the counts, the decisions, and the
counts in its rows. -/
theorem hasTooManyDigits_iff (s : FolderStatistics) :
    s.toDocument.hasTooManyDigits = false ↔ s.Writable := by
  have hRows : (Document.list (s.rows.map SummaryRow.toDocument)).hasTooManyDigits = false ↔
      ∀ row ∈ s.rows, Short row.inconclusive ∧ Short row.failed := by
    rw [Document.hasTooManyDigits, Document.anyTooManyDigits_eq_false, List.forall_mem_map]
    exact forall₂_congr fun row _ => hasTooManyDigits_row row
  rw [toDocument, Document.hasTooManyDigits, Document.anyFieldTooManyDigits_eq_false]
  simp only [List.forall_mem_cons, Document.hasTooManyDigits_int, hRows]
  constructor
  · rintro ⟨-, -, -, -, hInconclusive, hFailed, -, hTests, hKept, hTimeouts, hDecisions, -⟩
    exact ⟨hInconclusive, hFailed, hTests, hKept, hTimeouts, hDecisions⟩
  · intro h
    exact ⟨hasTooManyDigits_reals _, hasTooManyDigits_reals _, rfl, rfl, h.inconclusive, h.failed,
      rfl, h.completedTests, h.rows, h.consecutiveTimeouts, h.decisions, List.forall_mem_nil _⟩

/-- A record is nested three deep: its fields, the rows, and the cells of a row. -/
theorem regular_toDocument (s : FolderStatistics) (n : Nat) :
    Document.Regular (n + 3) s.toDocument := by
  have hReals : ∀ xs, Document.Regular (n + 2) (reals xs) := by
    intro xs
    refine .list fun d hd => ?_
    obtain ⟨x, -, rfl⟩ := List.mem_map.1 hd
    exact .number _ _
  have hRows : Document.Regular (n + 2) (.list (s.rows.map SummaryRow.toDocument)) := by
    refine .list fun d hd => ?_
    obtain ⟨row, -, rfl⟩ := List.mem_map.1 hd
    refine .list ?_
    simp only [SummaryRow.cells, List.forall_mem_cons]
    exact ⟨.text _ _, .text _ _, .text _ _, .text _ _, .text _ _, .text _ _, .text _ _, .text _ _,
      .number _ _, .number _ _, .text _ _, List.forall_mem_nil _⟩
  have hNames : (["times", "mems", "mem_min", "mem_max", "inconclusive", "failed", "completed",
      "completed_tests", "csv_ready_data", "consecutive_timeouts", "decisions"] :
        List String).Nodup := by decide
  refine .record hNames ?_
  simp only [List.forall_mem_cons]
  exact ⟨hReals _, hReals _, .number _ _, .number _ _, .number _ _, .number _ _, .flag _ _,
    .number _ _, hRows, .number _ _, .number _ _, List.forall_mem_nil _⟩

end FolderStatistics

namespace Benchmark

/-- What is kept for each solver, in order: its folders in order, each with its record. -/
abbrev Ledger := List (String × List (String × FolderStatistics))

namespace Ledger

def folders (records : List (String × FolderStatistics)) : SolverRecord :=
  .folders (records.map fun record => (record.1, .recorded record.2))

def entries (l : Ledger) : List (String × SolverRecord) :=
  l.map fun entry => (entry.1, folders entry.2)

def statistics (l : Ledger) : Statistics := .solvers l.entries

theorem statistics_nil : statistics [] = .empty := rfl

/-- The statistics of a ledger tell everything about it. -/
theorem statistics_injective : Function.Injective statistics := by
  have hRecord : Function.Injective fun record : String × FolderStatistics =>
      (record.1, FolderRecord.recorded record.2) := by
    rintro ⟨folder, s⟩ ⟨folder', s'⟩ h
    cases h
    rfl
  have hEntry : Function.Injective fun entry : String × List (String × FolderStatistics) =>
      (entry.1, folders entry.2) := by
    rintro ⟨label, records⟩ ⟨label', records'⟩ h
    obtain ⟨hLabel, hFolders⟩ := Prod.mk.inj h
    exact Prod.ext hLabel (List.map_injective_iff.2 hRecord (SolverRecord.folders.inj hFolders))
  intro l l' h
  exact List.map_injective_iff.2 hEntry (Statistics.solvers.inj h)

/-- No solver is there twice, and no folder of a solver. -/
structure Distinct (l : Ledger) : Prop where
  labels : (l.map Prod.fst).Nodup
  folders : ∀ entry ∈ l, (entry.2.map Prod.fst).Nodup

/-- Every number of every record can be written. -/
def Writable (l : Ledger) : Prop := ∀ entry ∈ l, ∀ record ∈ entry.2, record.2.Writable

/-- The text of the backup. -/
def text (l : Ledger) : String := l.statistics.toDocument.indentedText

/-- The records of a solver are a record of their documents. -/
theorem folders_toDocument (records : List (String × FolderStatistics)) :
    (folders records).toDocument =
      .record (records.map fun record => (record.1, record.2.toDocument)) := by
  simp [folders, SolverRecord.toDocument, FolderRecord.toDocument]

/-- A ledger is a record of records: solvers, then folders. -/
theorem statistics_toDocument (l : Ledger) : l.statistics.toDocument =
    .record (l.map fun entry => (entry.1, (folders entry.2).toDocument)) := by
  simp [statistics, entries, Statistics.toDocument]

/-- The records of a solver are read back from their document. -/
theorem ofDocument_folders (records : List (String × FolderStatistics)) :
    SolverRecord.ofDocument (folders records).toDocument = folders records := by
  rw [folders_toDocument, folders, SolverRecord.ofDocument, List.map_map]
  refine congrArg SolverRecord.folders (List.map_congr_left fun record _ => ?_)
  simp [FolderRecord.ofDocument, FolderStatistics.ofDocument?_toDocument]

/-- A ledger is read back from its document, with its solvers and folders in their order. -/
theorem ofDocument_statistics (l : Ledger) :
    Statistics.ofDocument l.statistics.toDocument = l.statistics := by
  rw [statistics_toDocument, statistics, entries, Statistics.ofDocument, List.map_map]
  refine congrArg Statistics.solvers (List.map_congr_left fun entry _ => ?_)
  simp [ofDocument_folders]

/-- A ledger can be written exactly if all its records can. -/
theorem hasTooManyDigits_iff (l : Ledger) :
    l.statistics.toDocument.hasTooManyDigits = false ↔ l.Writable := by
  rw [statistics_toDocument, Document.hasTooManyDigits, Document.anyFieldTooManyDigits_eq_false,
    List.forall_mem_map]
  refine forall₂_congr fun entry _ => ?_
  rw [folders_toDocument, Document.hasTooManyDigits, Document.anyFieldTooManyDigits_eq_false,
    List.forall_mem_map]
  exact forall₂_congr fun record _ => record.2.hasTooManyDigits_iff

/-- A ledger is nested five deep: solvers, folders, records, rows, and the cells of a row. -/
theorem regular_toDocument {l : Ledger} (hDistinct : l.Distinct) {limit : Nat}
    (hEnough : 5 ≤ limit) : Document.Regular limit l.statistics.toDocument := by
  obtain ⟨n, rfl⟩ := Nat.exists_eq_add_of_le' hEnough
  rw [statistics_toDocument]
  refine .record (by simpa [Function.comp_def] using hDistinct.labels) ?_
  rw [List.forall_mem_map]
  intro entry hEntry
  rw [folders_toDocument]
  refine .record (by simpa [Function.comp_def] using hDistinct.folders entry hEntry) ?_
  rw [List.forall_mem_map]
  exact fun record _ => record.2.regular_toDocument n

/-- A ledger is read back from its text. -/
theorem parse_text {l : Ledger} (hDistinct : l.Distinct) (hWritable : l.Writable) (depth : Depth) :
    Document.parse l.text depth.limit = .ok l.statistics.toDocument :=
  Document.parse_chars Document.Layout.blank_indented (regular_toDocument hDistinct depth.enough)
    ((hasTooManyDigits_iff l).2 hWritable)

section Place

variable {before : Ledger} {label folder : String} {first rest : List (String × FolderStatistics)}
  {after : Ledger} (hLabel : label ∉ before.map Prod.fst) (hFolder : folder ∉ first.map Prod.fst)

theorem map_fst_entries (l : Ledger) : l.entries.map Prod.fst = l.map Prod.fst := by
  rw [entries, List.map_map]
  rfl

theorem entries_append (l m : Ledger) : entries (l ++ m) = l.entries ++ m.entries :=
  List.map_append

include hLabel

/-- A solver is found under its label, if no other one before it has the same. -/
theorem lookup_entries (records : List (String × FolderStatistics)) :
    (entries (before ++ (label, records) :: after)).lookup label = some (folders records) := by
  rw [entries_append, Document.lookup_append (by rwa [map_fst_entries])]
  simp [entries]

/-- A solver that is there stays where it is. -/
theorem withSolver_mem (records : List (String × FolderStatistics)) :
    (statistics (before ++ (label, records) :: after)).withSolver label =
      .ok (statistics (before ++ (label, records) :: after)) := by
  rw [statistics, Statistics.withSolver, Statistics.entries]
  simp only [bind, Except.bind, lookup_entries hLabel records]
  rfl

/-- A solver that is not there yet goes behind all others, without records. -/
theorem withSolver_not_mem :
    (statistics before).withSolver label = .ok (statistics (before ++ [(label, [])])) := by
  have hLookup : before.entries.lookup label = none := by
    have hOther : label ∉ before.entries.map Prod.fst := by rwa [map_fst_entries]
    rw [← List.append_nil before.entries, Document.lookup_append hOther]
    rfl
  rw [statistics, Statistics.withSolver, Statistics.entries]
  simp only [bind, Except.bind, hLookup]
  rw [statistics, entries_append]
  rfl

include hFolder

/-- The record of a folder is found under its name, if no other one before it has the same. -/
theorem folder?_eq :
    (statistics (before ++ (label, first ++ rest) :: after)).folder? label folder =
      .ok ((rest.lookup folder).map .recorded) := by
  rw [statistics, Statistics.folder?, Statistics.entries]
  simp only [bind, Except.bind, lookup_entries hLabel (first ++ rest), folders,
    SolverRecord.entries, Document.lookup_map FolderRecord.recorded, Document.lookup_append hFolder]
  rfl

/-- A record is put in its place. -/
theorem putFolder_eq (s : FolderStatistics) :
    (statistics (before ++ (label, first ++ rest) :: after)).putFolder label folder (.recorded s) =
      statistics (before ++ (label, first ++ Document.putField rest folder s) :: after) := by
  have hPut : Document.putField (entries (before ++ (label, first ++ rest) :: after)) label
      (folders (first ++ Document.putField rest folder s)) =
        entries (before ++ (label, first ++ Document.putField rest folder s) :: after) := by
    rw [entries_append, Document.putField_append (by rwa [map_fst_entries]), entries_append]
    simp [entries, Document.putField]
  rw [statistics, Statistics.putFolder]
  simp only [lookup_entries hLabel (first ++ rest)]
  rw [folders, Document.putField_map FolderRecord.recorded, Document.putField_append hFolder,
    ← folders, hPut, statistics]

end Place

end Ledger

theorem backupPath_eq : backupPath = FileTree.inFolder resultFolder "backup.tmp" := by decide

theorem isName_backup : FileTree.IsName "backup.tmp" := by
  constructor <;> decide

/-- A text that no bench takes for a document, whatever depth it can read. -/
def IsCut (text : String) : Prop :=
  ∀ depth : Depth, Document.parse text depth.limit = .error .malformed

section Saving

variable {w : Workbench} {l : Ledger} (hFolder : w.files[resultFolder]? = some .directory)
  (hBackup : w.files[backupPath]? ≠ some .directory) (hStatistics : w.statistics = l.statistics)

include hFolder hBackup in
/-- The backup is written unless a directory is in its place. -/
theorem write_backup (text : String) :
    w.write backupPath text =
      .ok (w.store (w.files.insert backupPath (.file (Utf8.encode text)))) := by
  rw [backupPath_eq] at hBackup ⊢
  rw [Workbench.write,
    FileTree.write_inFolder isName_resultFolder isName_backup hFolder hBackup]

include hFolder hBackup hStatistics

/-- A ledger that can be written is saved as a whole. -/
theorem save_writable (h : l.Writable) :
    w.save = .done (w.store (w.files.insert backupPath (.file (Utf8.encode l.text)))) := by
  have hPart : l.statistics.toDocument.writtenPart? .indented 0 = none := by
    rw [Document.writtenPart?_eq_none, Ledger.hasTooManyDigits_iff]
    exact h
  rw [Workbench.save, if_pos (FileTree.isDirectory_name isName_resultFolder hFolder)]
  simp only [hStatistics, hPart, Option.map_none, Option.getD_none,
    write_backup hFolder hBackup, Option.isSome_none, Ledger.text]
  rfl

/-- Of a ledger that cannot be written a part is saved that is no document. -/
theorem save_cut (hDistinct : l.Distinct) (h : ¬l.Writable) :
    ∃ text, IsCut text ∧
      w.save = .stopped (w.store (w.files.insert backupPath (.file (Utf8.encode text))))
        (.misuse .tooManyDigits) := by
  have hPart : l.statistics.toDocument.writtenPart? .indented 0 ≠ none := by
    rw [ne_eq, Document.writtenPart?_eq_none, Ledger.hasTooManyDigits_iff]
    exact h
  obtain ⟨part, hSome⟩ := Option.ne_none_iff_exists'.1 hPart
  refine ⟨String.ofList part, fun depth => Document.parse_writtenPart
    Document.Layout.blank_indented (Ledger.regular_toDocument hDistinct depth.enough) hSome, ?_⟩
  rw [Workbench.save, if_pos (FileTree.isDirectory_name isName_resultFolder hFolder)]
  simp only [hStatistics, hSome, Option.map_some, Option.getD_some, write_backup hFolder hBackup,
    Option.isSome_some, if_true]

end Saving

section Reading

variable {files : FileTree} (hFolder : files[resultFolder]? = some .directory) {text : String}
  (hBackup : files[backupPath]? = some (.file (Utf8.encode text)))

include hFolder hBackup

theorem read_backup : files.read backupPath = .ok (Utf8.encode text) := by
  rw [backupPath_eq] at hBackup ⊢
  exact FileTree.read_inFolder isName_resultFolder isName_backup hFolder hBackup

/-- What a bench has saved is what the next one starts from. -/
theorem readBackup_text {l : Ledger} (hDistinct : l.Distinct) (hWritable : l.Writable)
    (hText : text = l.text) (depth : Depth) :
    Workbench.readBackup depth files = .ok (some l.statistics) := by
  have hParse := Ledger.parse_text hDistinct hWritable depth
  rw [Workbench.readBackup, read_backup hFolder hBackup, hText]
  simp only [Except.mapError, bind, Except.bind, Utf8.decode_encode, String.ofList_toList, hParse,
    Ledger.ofDocument_statistics]
  rfl

/-- A backup that is cut off counts for no statistics at all. -/
theorem readBackup_cut (hText : IsCut text) (depth : Depth) :
    Workbench.readBackup depth files = .ok none := by
  rw [Workbench.readBackup, read_backup hFolder hBackup]
  simp only [Except.mapError, bind, Except.bind, Utf8.decode_encode, String.ofList_toList,
    hText depth]
  rfl

end Reading

section Loading

variable {w : Workbench} (hFolder : w.files[resultFolder]? = some .directory)

include hFolder

/-- Without a backup the statistics stay. -/
theorem load_none (hBackup : w.files[backupPath]? = none) : w.load = .done w := by
  have hPresent : w.files.present backupPath = false := by
    rw [backupPath_eq] at hBackup ⊢
    rw [FileTree.present_inFolder isName_resultFolder isName_backup hFolder, hBackup,
      Option.isSome_none]
  rw [Workbench.load, hPresent]
  rfl

variable {text : String} (hBackup : w.files[backupPath]? = some (.file (Utf8.encode text)))

include hBackup

theorem present_backup : w.files.present backupPath = true := by
  rw [backupPath_eq] at hBackup ⊢
  rw [FileTree.present_inFolder isName_resultFolder isName_backup hFolder, hBackup,
    Option.isSome_some]

/-- The statistics of a ledger are taken up again. -/
theorem load_text {l : Ledger} (hDistinct : l.Distinct) (hWritable : l.Writable)
    (hText : text = l.text) : ∃ line,
    w.load = .done { w.printLine line with statistics := l.statistics } := by
  have hRead := readBackup_text hFolder hBackup hDistinct hWritable hText w.depth
  refine ⟨">> Resuming from previous backup...", ?_⟩
  rw [Workbench.load, present_backup hFolder hBackup]
  simp only [if_true, Workbench.printLine, hRead]

/-- A backup that is cut off is dropped. -/
theorem load_cut (hText : IsCut text) : ∃ line line',
    w.load = .done { (w.printLine line).printLine line' with statistics := .empty } := by
  have hRead := readBackup_cut hFolder hBackup hText w.depth
  refine ⟨">> Resuming from previous backup...", ">> Error loading backup file, starting fresh", ?_⟩
  rw [Workbench.load, present_backup hFolder hBackup]
  simp only [if_true, Workbench.printLine, hRead]

end Loading

end Benchmark

end SatLab
