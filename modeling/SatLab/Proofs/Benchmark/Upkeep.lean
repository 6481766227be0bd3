import SatLab.Proofs.Benchmark.CampaignRun
import SatLab.Proofs.Benchmark.FolderTrace
import SatLab.Proofs.Benchmark.LedgerRecords

/-! What a campaign keeps up, whatever its runs come to. All that can happen to a record is listed
once. What each of these steps keeps is then true of every record in the statistics and in the
backup, and the table of a run has the rows of the statistics. -/

namespace SatLab

namespace FolderStatistics

/-- A record whose parts agree: every outcome is one of an instance that is dealt with, there is a
memory for each time, and the rows can be printed. -/
structure Coherent (s : FolderStatistics) : Prop where
  counted : s.outcomes = s.completedTests
  measured : s.memories.length = s.times.length
  printable : ∀ row ∈ s.rows, Short row.inconclusive ∧ Short row.failed

/-- A fresh record is coherent. -/
theorem coherent_fresh : fresh.Coherent := ⟨rfl, rfl, List.forall_mem_nil _⟩

namespace Coherent

variable {s : FolderStatistics} (h : s.Coherent)

include h

/-- Dealing with an outcome keeps a record coherent. -/
theorem deal (o : Outcome) : (s.deal o).Coherent where
  counted := by rw [deal_outcomes, deal_completedTests, h.counted]
  measured := by
    rcases o with (seconds | reason) | m
    · exact h.measured
    · exact h.measured
    · simp [FolderStatistics.deal, takeIn, succeed, h.measured]
  printable := by
    rw [deal_rows]
    exact h.printable

/-- Giving up the rest of a folder keeps a record coherent. -/
theorem giveUp (left : Nat) : (s.giveUp left).Coherent where
  counted := by
    have hSkip := outcomes_skip s left
    rw [h.counted] at hSkip
    exact hSkip
  measured := h.measured
  printable := h.printable

/-- Marking a folder as completed keeps a record coherent. -/
theorem complete : ({ s with completed := true } : FolderStatistics).Coherent :=
  ⟨h.counted, h.measured, h.printable⟩

/-- Adding a row of short counts to a completed record keeps it coherent. -/
theorem summarize {row : SummaryRow} (hRow : Short row.inconclusive ∧ Short row.failed) :
    ({ s with completed := true, rows := s.rows ++ [row] } : FolderStatistics).Coherent := by
  refine ⟨h.counted, h.measured, ?_⟩
  rw [List.forall_mem_append, List.forall_mem_singleton]
  exact ⟨h.printable, hRow⟩

/-- Where a time was measured, memory was measured too. -/
theorem memories_ne (hTimes : s.times ≠ []) : s.memories ≠ [] := by
  rw [← List.length_pos_iff] at hTimes ⊢
  rwa [h.measured]

end Coherent

end FolderStatistics

namespace Benchmark

/-- What is asked of the record of a solver on a folder, on a bench. -/
abbrev Rule := Workbench → String → String → FolderStatistics → Prop

/-- All that can happen to the record of a folder that is not completed: an outcome is dealt with,
the rest of the folder is given up, or the folder is closed. A summary that cannot be made or
printed ends the run. -/
inductive FolderJob.RecordStep (job : FolderJob) (Ends : Fault → Prop) :
    Workbench → FolderStatistics → Workbench → FolderStatistics → Prop where
  | deal {w : Workbench} {s : FolderStatistics} {o : Outcome} (h : job.Tries s w o) :
      RecordStep job Ends w s (job.attempted s w) (s.deal o)
  | giveUp {w : Workbench} {s : FolderStatistics} (hMore : s.completedTests < job.instances.length)
      (hMany : FolderStatistics.timeoutLimit ≤ s.consecutiveTimeouts) :
      RecordStep job Ends w s w (s.giveUp (job.instances.length - s.completedTests))
  | timeless {w : Workbench} {s : FolderStatistics}
      (hAll : s.completedTests = job.instances.length) (hTimes : s.times = []) :
      RecordStep job Ends w s w { s with completed := true }
  | summarized {w : Workbench} {s : FolderStatistics} {row : SummaryRow}
      (hAll : s.completedTests = job.instances.length) (hTimes : s.times ≠ [])
      (hSolver : row.solver = job.contestant.label) (hFolder : row.folder = job.folder) :
      RecordStep job Ends w s w { s with completed := true, rows := s.rows ++ [row] }
  | unsummarized {w : Workbench} {s : FolderStatistics} {fault : Misuse}
      (hAll : s.completedTests = job.instances.length) (hTimes : s.times ≠ [])
      (hEnds : Ends (.misuse fault)) :
      RecordStep job Ends w s w { s with completed := true }

/-- A campaign that starts from a bench upholds a rule: it holds of fresh records and stays true in
each step. Runs that end with other faults than the given ones do not matter. -/
structure Campaign.Upholds (c : Campaign) (start : Workbench) (Ends : Fault → Prop) (Good : Rule) :
    Prop where
  grows : ∀ {w w' : Workbench} {label folder : String} {s : FolderStatistics}, w.Grows w' →
    Good w label folder s → Good w' label folder s
  fresh : ∀ {w : Workbench}, start.Grows w → ∀ k ∈ c.contestants, ∀ group ∈ c.groups,
    Good w k.label group.1 .fresh
  step : ∀ {w w' : Workbench} {s s' : FolderStatistics}, start.Grows w → ∀ k ∈ c.contestants,
    ∀ group ∈ c.groups, s.completed = false →
    (c.job k group.1 group.2).RecordStep Ends w s w' s' → Good w k.label group.1 s →
    Good w' k.label group.1 s'

/-- The rule holds of a record whose parts agree. -/
structure Sound (Good : Rule) (w : Workbench) (label folder : String) (s : FolderStatistics) :
    Prop where
  coherent : s.Coherent
  good : Good w label folder s

/-- The statistics of a bench are a ledger of such records, and so is every backup there has been
that is a document. -/
structure Kept (R : String → String → FolderStatistics → Prop) (w : Workbench) (l : Ledger) :
    Prop where
  statistics : w.statistics = l.statistics
  distinct : l.Distinct
  records : l.All R
  backups : ∀ t ∈ w.snapshots, BackupLeft (·.All R) t[backupPath]?

/-- The bench works at a table that has the rows of the ledger, in some order. -/
structure AtTable (R : String → String → FolderStatistics → Prop) (n : Nat) (w : Workbench)
    (l : Ledger) : Prop extends Kept R w l where
  short : n < 10 ^ 239
  folder : w.files[resultFolder]? = some .directory
  table : ∃ rows : List SummaryRow, rows.Perm l.rows ∧
    w.files[tableAt n]? = some (.file (Utf8.encode (tableText rows)))

theorem BackupLeft.mono {Good Good' : Ledger → Prop} {entry : Option FileEntry}
    (h : BackupLeft Good entry) (hImp : ∀ l, Good l → Good' l) : BackupLeft Good' entry := by
  cases h with
  | none => exact .none
  | ledger hGood hDistinct hWritable => exact .ledger (hImp _ hGood) hDistinct hWritable
  | cut hText => exact .cut hText

section Keep

variable {R R' : String → String → FolderStatistics → Prop} {n : Nat} {w w' : Workbench}
  {l l' : Ledger}

/-- The statistics change, and the files stay. -/
theorem Kept.change (h : Kept R w l) (hFiles : w'.files = w.files)
    (hHistory : w'.history = w.history) (hStatistics : w'.statistics = l'.statistics)
    (hDistinct : l'.Distinct) (hRecords : l'.All R')
    (hImp : ∀ label folder s, R label folder s → R' label folder s) : Kept R' w' l' where
  statistics := hStatistics
  distinct := hDistinct
  records := hRecords
  backups := by
    rw [Workbench.snapshots, hFiles, hHistory]
    exact fun t ht => (h.backups t ht).mono fun l hl => hl.imp hImp

theorem Kept.mono (h : Kept R w l) (hImp : ∀ label folder s, R label folder s → R' label folder s) :
    Kept R' w l :=
  h.change rfl rfl h.statistics h.distinct (h.records.imp hImp) hImp

/-- While a run keeps its books the backup is no directory. -/
theorem Kept.backup_ne (h : Kept R w l) : w.files[backupPath]? ≠ some .directory := by
  have hBackup := h.backups w.files List.mem_cons_self
  intro hEntry
  rw [hEntry] at hBackup
  cases hBackup

/-- A file tree with such a backup is added. -/
theorem Kept.store (h : Kept R w l) {files : FileTree}
    (hBackup : BackupLeft (·.All R) files[backupPath]?) : Kept R (w.store files) l :=
  ⟨h.statistics, h.distinct, h.records, List.forall_mem_cons.2 ⟨hBackup, h.backups⟩⟩

/-- The records that can be written are saved as a whole, and otherwise the backup is cut off. -/
theorem Kept.save (h : Kept R w l) (hFolder : w.files[resultFolder]? = some .directory) :
    ∃ content, Kept R w.save.value l ∧
      w.save.value = w.store (w.files.insert backupPath (.file content)) ∧
      (w.save.fault = none ∨ w.save.fault = some (.misuse .tooManyDigits)) := by
  have hInsert : ∀ content, BackupLeft (·.All R) (some (.file content)) →
      Kept R (w.store (w.files.insert backupPath (.file content))) l := by
    intro content hContent
    refine h.store ?_
    rwa [FileTree.getElem?_insert_entry, if_pos rfl]
  by_cases hWritable : l.Writable
  · have hSave := save_writable hFolder h.backup_ne h.statistics hWritable
    rw [hSave]
    exact ⟨_, hInsert _ (.ledger h.records h.distinct hWritable), rfl, .inl rfl⟩
  · obtain ⟨text, hText, hSave⟩ := save_cut hFolder h.backup_ne h.statistics h.distinct hWritable
    rw [hSave]
    exact ⟨_, hInsert _ (.cut hText), rfl, .inr rfl⟩

/-- Saving keeps the statistics and adds a good backup, if there is a directory for it. -/
theorem Kept.saved (h : Kept R w l) : Kept R w.save.value l := by
  by_cases hFolder : w.files[resultFolder]? = some .directory
  · obtain ⟨content, hKept, -⟩ := h.save hFolder
    exact hKept
  · rcases w.save_cases with hSame | ⟨hThere, -⟩
    · rwa [hSame]
    · exact absurd hThere hFolder

/-- A step that leaves files and history alone, and changes the records without losing a row, keeps
the table in step with the ledger. -/
theorem AtTable.change (h : AtTable R n w l) (hFiles : w'.files = w.files)
    (hHistory : w'.history = w.history) (hStatistics : w'.statistics = l'.statistics)
    (hDistinct : l'.Distinct) (hRecords : l'.All R') (hRows : l.rows.Perm l'.rows)
    (hImp : ∀ label folder s, R label folder s → R' label folder s) : AtTable R' n w' l' where
  toKept := h.toKept.change hFiles hHistory hStatistics hDistinct hRecords hImp
  short := h.short
  folder := by rw [hFiles]; exact h.folder
  table := by
    obtain ⟨rows, hPerm, hTable⟩ := h.table
    rw [hFiles]
    exact ⟨rows, hPerm.trans hRows, hTable⟩

/-- What is printed and tried changes nothing but the rule. -/
theorem AtTable.frame (h : AtTable R n w l) (hFiles : w'.files = w.files)
    (hHistory : w'.history = w.history) (hStatistics : w'.statistics = w.statistics)
    (hImp : ∀ label folder s, R label folder s → R' label folder s) : AtTable R' n w' l :=
  h.change hFiles hHistory (hStatistics.trans h.statistics) h.distinct (h.records.imp hImp)
    (List.Perm.refl _) hImp

/-- Saving keeps the table in step with the ledger, and fails only for a number with too many
digits. -/
theorem AtTable.save (h : AtTable R n w l) : AtTable R n w.save.value l ∧
    (w.save.fault = none ∨ w.save.fault = some (.misuse .tooManyDigits)) := by
  obtain ⟨content, hKept, hValue, hFault⟩ := h.toKept.save h.folder
  have hOther : backupPath ≠ resultFolder := by decide
  obtain ⟨rows, hPerm, hTable⟩ := h.table
  refine ⟨⟨hKept, h.short, ?_, rows, hPerm, ?_⟩, hFault⟩
  · rw [hValue]
    exact (FileTree.getElem?_insert_entry ..).trans ((if_neg hOther).trans h.folder)
  · rw [hValue]
    exact (FileTree.getElem?_insert_entry ..).trans
      ((if_neg (tableAt_ne_backup n).symm).trans hTable)

/-- A row is added to the table. -/
theorem AtTable.append (h : AtTable R n w l) (row : SummaryRow) : ∃ files,
    w.append (tableAt n) row.line = .ok (w.store files) ∧
      files[backupPath]? = w.files[backupPath]? ∧ files[resultFolder]? = some .directory ∧
      ∃ rows : List SummaryRow, rows.Perm (l.rows ++ [row]) ∧
        files[tableAt n]? = some (.file (Utf8.encode (tableText rows))) := by
  obtain ⟨rows, hPerm, hTable⟩ := h.table
  have hName := isName_tableName h.short
  have hNew := FileTree.getElem?_insert_entry w.files (tableAt n)
  have hOther : tableAt n ≠ resultFolder := (resultFolder_ne_inFolder _).symm
  refine ⟨w.files.insert (tableAt n) (.file (Utf8.encode (tableText (rows ++ [row])))), ?_, ?_, ?_,
    rows ++ [row], hPerm.append_right _, ?_⟩
  · rw [tableAt] at hTable ⊢
    rw [Workbench.append, FileTree.read_inFolder isName_resultFolder hName h.folder hTable]
    simp only [FileTree.write_inFolder isName_resultFolder hName h.folder
      (by simp [hTable] : w.files[FileTree.inFolder resultFolder (tableName n)]? ≠ some .directory),
      tableText_concat, Utf8.encode_append]
  · rw [hNew, if_neg (tableAt_ne_backup n)]
  · rw [hNew, if_neg hOther]
    exact h.folder
  · rw [hNew, if_pos rfl]

end Keep

section Folder

variable {c : Campaign} {start : Workbench} {Ends : Fault → Prop} {Good : Rule} {n : Nat}
  {w w' : Workbench} {l : Ledger} {label folder : String} {s : FolderStatistics}

/-- A sound record stays sound while attempts and lines grow. -/
theorem Campaign.Upholds.sound_mono (h : c.Upholds start Ends Good) (hGrows : w.Grows w')
    (label folder : String) (s : FolderStatistics) (hs : Sound Good w label folder s) :
    Sound Good w' label folder s :=
  ⟨hs.coherent, h.grows hGrows hs.good⟩

/-- A record that is worked on, while the ledger has a record of the folder with the same rows. -/
structure Working (Good : Rule) (n : Nat) (l : Ledger) (label folder : String) (w : Workbench)
    (s : FolderStatistics) : Prop where
  sound : Sound Good w label folder s
  opened : s.completed = false
  bench : ∃ old : FolderStatistics, old.rows = s.rows ∧
    AtTable (Sound Good w) n w (l.put label folder old)

/-- The bench with a record in its statistics. -/
def Workbench.recorded (w : Workbench) (label folder : String) (s : FolderStatistics) :
    Workbench :=
  { w with statistics := publish label folder w.statistics (.recorded s) }

/-- Recording changes neither the attempts nor the lines. -/
theorem Workbench.Grows.recorded (w : Workbench) (label folder : String) (s : FolderStatistics) :
    w.Grows (w.recorded label folder s) :=
  .of_files rfl rfl (List.suffix_refl _)

/-- Recording a folder puts its record into the ledger. -/
theorem recorded_statistics (h : w.statistics = l.statistics) (label folder : String)
    (s : FolderStatistics) :
    (w.recorded label folder s).statistics = (l.put label folder s).statistics := by
  rw [Workbench.recorded, publish, h, Ledger.putFolder_statistics]

/-- A record is put into the statistics that has the rows of the one before it. -/
theorem AtTable.recorded (h : AtTable (Sound Good w) n w l) (hUp : c.Upholds start Ends Good)
    (hRows : l.rowsAt label folder = s.rows) (hs : Sound Good w label folder s) :
    AtTable (Sound Good (w.recorded label folder s)) n (w.recorded label folder s)
      (l.put label folder s) := by
  have hPerm := l.perm_rows_put label folder s
  rw [hRows, List.perm_append_right_iff] at hPerm
  have hImp := hUp.sound_mono (.recorded w label folder s)
  exact h.change rfl rfl (recorded_statistics h.statistics label folder s)
    (h.distinct.put label folder s) ((h.records.put hs).imp hImp) hPerm.symm hImp

/-- The record of a folder is replaced by one with the same rows. -/
theorem AtTable.put {old : FolderStatistics}
    (h : AtTable (Sound Good w) n w (l.put label folder old)) (hUp : c.Upholds start Ends Good)
    (hRows : old.rows = s.rows) (hs : Sound Good w label folder s) :
    AtTable (Sound Good (w.recorded label folder s)) n (w.recorded label folder s)
      (l.put label folder s) := by
  have hNext := h.recorded hUp ((Ledger.rowsAt_put_self l label folder old).trans hRows) hs
  rwa [Ledger.put_put] at hNext

/-- A row is added to the record and to the table. -/
theorem AtTable.summarize {row : SummaryRow}
    (h : AtTable (Sound Good w) n w (l.put label folder s)) (hUp : c.Upholds start Ends Good)
    (hs : Sound Good w label folder { s with completed := true, rows := s.rows ++ [row] }) :
    ∃ files last, w.append (tableAt n) row.line = .ok (w.store files) ∧
      (w.store files).recorded label folder
        { s with completed := true, rows := s.rows ++ [row] } = last ∧ w.Grows last ∧
      AtTable (Sound Good last) n last
        (l.put label folder { s with completed := true, rows := s.rows ++ [row] }) := by
  obtain ⟨files, hAppend, hBackup, hFolder, rows, hPerm, hTable⟩ := h.append row
  have hStored : BackupLeft (·.All (Sound Good w)) files[backupPath]? := by
    rw [hBackup]
    exact h.backups _ List.mem_cons_self
  have hGrows : w.Grows ((w.store files).recorded label folder
      { s with completed := true, rows := s.rows ++ [row] }) :=
    (Workbench.Grows.store w files).trans (.recorded ..)
  have hRows := (l.put label folder s).perm_rows_put label folder
    { s with completed := true, rows := s.rows ++ [row] }
  rw [Ledger.put_put, Ledger.rowsAt_put_self] at hRows
  have hMoved : ((l.put label folder s).rows ++ (s.rows ++ [row])).Perm
      ((l.put label folder s).rows ++ [row] ++ s.rows) := by
    rw [List.append_assoc]
    exact List.perm_append_comm.append_left _
  have hSame := (List.perm_append_right_iff s.rows).1 (hRows.trans hMoved)
  have hStatistics := recorded_statistics (w := w.store files) h.statistics label folder
    { s with completed := true, rows := s.rows ++ [row] }
  have hDistinct := h.distinct.put label folder
    { s with completed := true, rows := s.rows ++ [row] }
  have hAll := h.records.put hs
  rw [Ledger.put_put] at hStatistics hDistinct hAll
  have hImp := hUp.sound_mono hGrows
  exact ⟨files, _, hAppend, rfl, hGrows,
    (h.toKept.store hStored).change rfl rfl hStatistics hDistinct (hAll.imp hImp) hImp, h.short,
    hFolder, rows, hPerm.trans hSame.symm, hTable⟩

section Trace

variable (hUp : c.Upholds start Ends Good) {k : Contestant} (hk : k ∈ c.contestants)
  {group : String × List PathName} (hGroup : group ∈ c.groups)

include hUp hk hGroup

/-- An attempt, with its outcome in the statistics. -/
theorem Working.attempt (hStart : start.Grows w) (h : Working Good n l k.label group.1 w s)
    {o : Outcome} (hTries : (c.job k group.1 group.2).Tries s w o) (line : String) :
    Working Good n l k.label group.1 ((c.job k group.1 group.2).attempted s w) (s.deal o) ∧
      Working Good n l k.label group.1 ((c.job k group.1 group.2).toSave s w o line)
        (s.deal o) := by
  obtain ⟨old, hRows, hTable⟩ := h.bench
  have hGrows : w.Grows ((c.job k group.1 group.2).attempted s w) :=
    .of_files rfl rfl (List.suffix_cons _ _)
  have hSound : Sound Good ((c.job k group.1 group.2).attempted s w) k.label group.1 (s.deal o) :=
    ⟨h.sound.coherent.deal o,
      hUp.step hStart k hk group hGroup h.opened (.deal hTries) h.sound.good⟩
  have hOpen : (s.deal o).completed = false := by rw [FolderStatistics.deal_completed, h.opened]
  have hSame : old.rows = (s.deal o).rows := by rw [FolderStatistics.deal_rows, hRows]
  have hTried : AtTable (Sound Good ((c.job k group.1 group.2).attempted s w)) n
      ((c.job k group.1 group.2).attempted s w) (l.put k.label group.1 old) :=
    hTable.frame rfl rfl rfl (hUp.sound_mono hGrows)
  let recorded := ((c.job k group.1 group.2).attempted s w).recorded k.label group.1 (s.deal o)
  have hPrinted : recorded.Grows ((c.job k group.1 group.2).toSave s w o line) :=
    .printLine recorded line
  have hSound' := hUp.sound_mono ((Workbench.Grows.recorded ..).trans hPrinted) _ _ _ hSound
  exact ⟨⟨hSound, hOpen, old, hSame, hTried⟩, hSound', hOpen, s.deal o, rfl,
    (hTried.put hUp hSame hSound).frame rfl rfl rfl (hUp.sound_mono hPrinted)⟩

omit hk hGroup in
/-- Saving keeps the record. -/
theorem Working.save (h : Working Good n l k.label group.1 w s) :
    Working Good n l k.label group.1 w.save.value s := by
  obtain ⟨old, hRows, hTable⟩ := h.bench
  have hGrows := hUp.sound_mono w.save_spec.1
  exact ⟨hGrows _ _ _ h.sound, h.opened, old, hRows, hTable.save.1.frame rfl rfl rfl hGrows⟩

/-- A run on the folder keeps the record, wherever it ends. -/
theorem Working.trace {last : FolderStatistics} {os : List Outcome} {fault : Option Fault}
    (hTrace : (c.job k group.1 group.2).FolderTrace s w os last w' fault)
    (hStart : start.Grows w) (h : Working Good n l k.label group.1 w s) :
    Working Good n l k.label group.1 w' last := by
  induction hTrace with
  | finished | unreadable => exact h
  | @gaveUp s w line hMore hMany =>
      obtain ⟨old, hRows, hTable⟩ := h.bench
      have hPrinted : w.Grows (w.printLine line) := .printLine w line
      have hSound : Sound Good w k.label group.1
          (s.giveUp ((c.job k group.1 group.2).instances.length - s.completedTests)) :=
        ⟨h.sound.coherent.giveUp _,
          hUp.step hStart k hk group hGroup h.opened (.giveUp hMore hMany) h.sound.good⟩
      exact ⟨hUp.sound_mono hPrinted _ _ _ hSound, h.opened, old, hRows,
        hTable.frame rfl rfl rfl (hUp.sound_mono hPrinted)⟩
  | unprinted hTries => exact (h.attempt hUp hk hGroup hStart hTries "").1
  | @unsaved _ _ _ line _ hTries => exact ((h.attempt hUp hk hGroup hStart hTries line).2).save hUp
  | @tried s _ w _ o line _ _ hTries _ _ ih =>
      have hSaved := ((c.job k group.1 group.2).grows_toSave s w o line).trans
        (Workbench.save_spec _).1
      exact ih (hStart.trans hSaved) (((h.attempt hUp hk hGroup hStart hTries line).2).save hUp)

end Trace

end Folder

end Benchmark

end SatLab
