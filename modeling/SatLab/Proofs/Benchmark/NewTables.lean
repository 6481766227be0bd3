import SatLab.Proofs.Benchmark.Restoring
import SatLab.Proofs.Storage.NumberedPath

/-! Every run writes a table of its own. It changes no file but the backup and this table, whatever
the statistics are and wherever it ends, and before the run the table was not there. So tables of
earlier runs stay as they were left. -/

namespace SatLab

namespace Benchmark

/-- What a run at a table leaves of the files: all but the backup and the table are the same. -/
structure LeftBy (n : Nat) (t t' : FileTree) : Prop where
  folder : t'[resultFolder]? = some .directory
  table : ∃ content, t'[tableAt n]? = some (.file content)
  others : ∀ path, path ≠ backupPath → path ≠ tableAt n → t'[path]? = t[path]?

/-- A bench that works at a table. The table was written after the start. -/
structure Workbench.WorksAt (n : Nat) (start w : Workbench) : Prop where
  short : n < 10 ^ 239
  current : LeftBy n start.files w.files
  trees : ∃ during, w.snapshots = during ++ start.snapshots ∧
    ∀ t ∈ during, LeftBy n start.files t

section Keep

variable {n : Nat} {t t' : FileTree} {start w w' : Workbench}

/-- Rewriting the backup is among the changes a run may leave. -/
theorem LeftBy.insertBackup (h : LeftBy n t t') (content : List UInt8) :
    LeftBy n t (t'.insert backupPath (.file content)) := by
  have hNew := FileTree.getElem?_insert_entry t' backupPath
  have hFolder : backupPath ≠ resultFolder := by decide
  obtain ⟨old, hTable⟩ := h.table
  refine ⟨?_, ⟨old, ?_⟩, fun path hBackup hOther => ?_⟩
  · rw [hNew, if_neg hFolder, h.folder]
  · rw [hNew, if_neg (tableAt_ne_backup n).symm, hTable]
  · rw [hNew, if_neg hBackup.symm, h.others path hBackup hOther]

/-- Rewriting the run's own table is among the changes a run may leave. -/
theorem LeftBy.insertTable (h : LeftBy n t t') (content : List UInt8) :
    LeftBy n t (t'.insert (tableAt n) (.file content)) := by
  have hNew := FileTree.getElem?_insert_entry t' (tableAt n)
  have hFolder : tableAt n ≠ resultFolder := (resultFolder_ne_inFolder _).symm
  refine ⟨?_, ⟨content, ?_⟩, fun path hBackup hOther => ?_⟩
  · rw [hNew, if_neg hFolder, h.folder]
  · rw [hNew, if_pos rfl]
  · rw [hNew, if_neg hOther.symm, h.others path hBackup hOther]

namespace Workbench.WorksAt

variable (h : WorksAt n start w)

include h

/-- Only the files matter. -/
theorem of_files (hFiles : w'.files = w.files) (hHistory : w'.history = w.history) :
    WorksAt n start w' := by
  refine ⟨h.short, hFiles ▸ h.current, ?_⟩
  rw [Workbench.snapshots, hFiles, hHistory]
  exact h.trees

/-- Statistics live in memory: changing them is no change of the files. -/
theorem withStatistics (statistics : Statistics) : WorksAt n start { w with statistics } :=
  h.of_files rfl rfl

/-- A run at work is still at work after a permitted change of the files. -/
theorem store {files : FileTree} (hFiles : LeftBy n start.files files) :
    WorksAt n start (w.store files) := by
  obtain ⟨during, hTrees, hDuring⟩ := h.trees
  refine ⟨h.short, hFiles, files :: during, ?_, List.forall_mem_cons.2 ⟨hFiles, hDuring⟩⟩
  exact congrArg (files :: ·) hTrees

/-- Saving keeps a run to its own table and the backup. -/
theorem save : WorksAt n start w.save.value := by
  rcases w.save_cases with hSame | ⟨-, content, hStored⟩
  · rwa [hSame]
  · rw [hStored]
    exact h.store (h.current.insertBackup content)

/-- Appending a row to its own table keeps a run at work. -/
theorem append {text : String} (hAppend : w.append (tableAt n) text = .ok w') :
    WorksAt n start w' := by
  unfold Workbench.append at hAppend
  split at hAppend
  · split at hAppend
    · next files hFiles =>
        cases hAppend
        obtain rfl := FileTree.eq_insert_of_write isName_resultFolder (isName_tableName h.short)
          h.current.folder hFiles
        exact h.store (h.current.insertTable _)
    · cases hAppend
  · cases hAppend

end Workbench.WorksAt

open Workbench (WorksAt)

/-- Two steps that each keep to the run's own files do so one after the other, also where the first
one stops. -/
theorem Workbench.WorksAt.bind {r : Reached Fault Workbench}
    {next : Workbench → Reached Fault Workbench} (h : WorksAt n start r.value)
    (hNext : ∀ w, WorksAt n start w → WorksAt n start (next w).value) :
    WorksAt n start (r.bind next).value := by
  unfold Reached.bind
  split
  · exact hNext _ h
  · exact h

/-! ### The work on a folder -/

namespace FolderJob

variable (job : FolderJob) {s : FolderState} (h : WorksAt n start s.bench)

include h

/-- Saving during a folder writes to the run's own files only. -/
theorem worksAt_save : WorksAt n start (job.save s).value.bench :=
  (h.withStatistics (job.publish s.bench.statistics s.record)).save

/-- Trying an instance writes to the run's own files only. -/
theorem worksAt_tryInstance (index : Int) (place : Nat) (path : PathName) :
    WorksAt n start (job.tryInstance s index place path).value.bench := by
  unfold tryInstance
  split
  · exact h
  · simp only
    split
    · exact h.of_files rfl rfl
    · split
      · exact h.of_files rfl rfl
      · exact job.worksAt_save (h.of_files rfl rfl)

/-- Skipping the rest of a folder writes to the run's own files only. -/
theorem worksAt_skipFrom (index : Int) : WorksAt n start (job.skipFrom s index).value.bench := by
  unfold skipFrom
  simp only
  split
  · exact h.of_files rfl rfl
  · exact h.of_files rfl rfl

/-- By induction on the instances, the loop over a folder writes to the run's own files only. -/
theorem worksAt_goThrough (instances : List (Int × Nat × PathName)) :
    WorksAt n start (job.goThrough s instances).value.bench := by
  induction instances generalizing s with
  | nil => exact h
  | cons member rest ih =>
      obtain ⟨index, place, path⟩ := member
      unfold goThrough
      split
      · exact h
      · exact job.worksAt_skipFrom h index
      · have hTried := job.worksAt_tryInstance h index place path
        simp only
        split
        · exact hTried
        · exact ih hTried

omit h in
/-- Setting the counters right touches no file. -/
theorem adjust_files {s' : FolderState} {outcomes : Number} (hAdjust : adjust s outcomes = .ok s') :
    s'.bench.files = s.bench.files ∧ s'.bench.history = s.bench.history := by
  unfold adjust at hAdjust
  simp only [bind, Except.bind, pure, Except.pure] at hAdjust
  repeat' split at hAdjust
  all_goals cases hAdjust
  all_goals exact ⟨rfl, rfl⟩

/-- The run of one folder writes to the run's own files only. -/
theorem worksAt_run : WorksAt n start (job.run s).value.bench := by
  unfold run
  split
  · exact h
  · split
    · exact h
    · next s' hAdjust =>
        obtain ⟨hFiles, hHistory⟩ := adjust_files hAdjust
        have hAdjusted := h.of_files hFiles hHistory
        split
        · exact hAdjusted
        · split
          · exact hAdjusted
          · exact job.worksAt_goThrough hAdjusted _

end FolderJob

/-! ### Runs -/

section Run

variable (c : Campaign)

/-- Summarising a folder writes its row to the run's own table only. -/
theorem worksAt_summarize (h : WorksAt n start w) (label folder : String) (total : Nat)
    (record : FolderRecord) :
    WorksAt n start (summarize w (tableAt n) label folder total record).value := by
  unfold summarize
  simp only
  split
  · exact h.of_files rfl rfl
  · exact h.of_files rfl rfl
  · split
    · exact h.of_files rfl rfl
    · split
      · exact h.of_files rfl rfl
      · next cells _ w' hAppend =>
          obtain ⟨text, -, hAppend⟩ := bind_eq_ok_iff.1 hAppend
          have hAppended := h.append hAppend
          split
          · exact hAppended.of_files rfl rfl
          · exact hAppended.of_files rfl rfl

/-- Closing a folder writes to the run's own files only. -/
theorem worksAt_closeFolder {s : FolderState} (h : WorksAt n start s.bench) (label folder : String)
    (total : Nat) :
    WorksAt n start (Campaign.closeFolder (tableAt n) label folder total s).value := by
  unfold Campaign.closeFolder
  split
  · exact h
  · exact h
  · exact (worksAt_summarize h label folder total _).bind fun w hNext => hNext.save

theorem worksAt_runFolder (h : WorksAt n start w) (k : Contestant) (folder : String)
    (members : List PathName) (record : FolderRecord) :
    WorksAt n start (c.runFolder (tableAt n) k folder members record w).value := by
  have hRun := (c.job k folder members).worksAt_run (s := { record, bench := w }) h
  unfold Campaign.runFolder Campaign.endFolder
  simp only
  split
  · exact hRun.withStatistics _
  · refine worksAt_closeFolder ?_ k.label folder members.length
    exact hRun.withStatistics _

theorem worksAt_visitFolder (h : WorksAt n start w) (k : Contestant) (folder : String)
    (members : List PathName) :
    WorksAt n start (c.visitFolder (tableAt n) k folder members w).value := by
  unfold Campaign.visitFolder
  split
  · exact h
  · simp only
    split
    · exact h.of_files rfl rfl
    · exact h.of_files rfl rfl
    · exact worksAt_runFolder c (h.withStatistics _) k folder members _

/-- By induction on the folders, a contestant's round writes to the run's own files only. -/
theorem worksAt_visitFolders (h : WorksAt n start w) (k : Contestant)
    (groups : List (String × List PathName)) :
    WorksAt n start (c.visitFolders (tableAt n) k w groups).value := by
  induction groups generalizing w with
  | nil => exact h
  | cons group groups ih =>
      exact (worksAt_visitFolder c h k group.1 group.2).bind fun w hNext => ih hNext

theorem worksAt_runContestant (h : WorksAt n start w) (k : Contestant) :
    WorksAt n start (c.runContestant (tableAt n) k w).value := by
  unfold Campaign.runContestant
  simp only
  generalize "\n=== " ++ upperCase k.label ++ " ===" = line
  have hPrinted : WorksAt n start (w.printLine line) := h.of_files rfl rfl
  split
  · exact hPrinted
  · exact worksAt_visitFolders c (hPrinted.withStatistics _) k _

/-- By induction on the contestants, the whole benchmark writes to the run's own files only. -/
theorem worksAt_runContestants (h : WorksAt n start w) (contestants : List Contestant) :
    WorksAt n start (c.runContestants (tableAt n) w contestants).value := by
  induction contestants generalizing w with
  | nil => exact h
  | cons k contestants ih =>
      exact (worksAt_runContestant c h k).bind fun w hNext => ih hNext

/-- A table that is started is written at once. -/
theorem worksAt_written (hFolder : w.files[resultFolder]? = some .directory) (hShort : n < 10 ^ 239)
    {content : List UInt8} {files : FileTree}
    (hFiles : w.files.write (tableAt n) content = .ok files) : WorksAt n w (w.store files) := by
  obtain rfl := FileTree.eq_insert_of_write isName_resultFolder (isName_tableName hShort)
    hFolder hFiles
  have hNew := FileTree.getElem?_insert_entry w.files (tableAt n)
  have hOther : tableAt n ≠ resultFolder := (resultFolder_ne_inFolder _).symm
  have hLeft : LeftBy n w.files (w.files.insert (tableAt n) (.file content)) := by
    refine ⟨?_, ⟨content, ?_⟩, fun path _ hPath => ?_⟩
    · rw [hNew, if_neg hOther, hFolder]
    · rw [hNew, if_pos rfl]
    · rw [hNew, if_neg hPath.symm]
  exact ⟨hShort, hLeft, [_], rfl, List.forall_mem_singleton.2 hLeft⟩

/-- A table is started unless it cannot be written. -/
theorem startTable_cases (hFolder : w.files[resultFolder]? = some .directory) (n : Nat) :
    (∃ content problem, w.files.write (tableAt n) content = .error problem ∧
        startTable w (tableAt n) = .stopped w (.access problem)) ∨
      WorksAt n w (startTable w (tableAt n)).value := by
  rw [startTable, Workbench.write]
  cases hFiles : w.files.write (tableAt n) (Utf8.encode
    (String.ofList (Sheet.rowChars tableColumns) ++ (knownRows w.statistics).value)) with
  | error problem => exact .inl ⟨_, problem, hFiles, rfl⟩
  | ok files =>
      have hShort : n < 10 ^ 239 := by
        by_contra hLarge
        obtain ⟨problem, hResolve⟩ := resolve_tableAt_of_large (Nat.le_of_not_lt hLarge) w.files
        rw [FileTree.write, hResolve] at hFiles
        cases hFiles
      have hWorks := worksAt_written hFolder hShort hFiles
      right
      simp only
      split
      · exact hWorks
      · exact hWorks

end Run

end Keep

/-! ### One run after another -/

/-- Every entry but the backup is there in the other files as well, and it is the same. -/
def Keeps (t t' : FileTree) : Prop :=
  ∀ path e, path ≠ backupPath → t[path]? = some e → t'[path]? = some e

theorem Keeps.refl (t : FileTree) : Keeps t t := fun _ _ _ he => he

theorem Keeps.trans {t t' t'' : FileTree} (h : Keeps t t') (h' : Keeps t' t'') : Keeps t t'' :=
  fun path e hPath he => h' path e hPath (h path e hPath he)

/-- A run whose table is new keeps every table there was before it. -/
theorem LeftBy.keeps {n : Nat} {t t' : FileTree} (h : LeftBy n t t') (hNew : t[tableAt n]? = none) :
    Keeps t t' := by
  intro path e hPath he
  have hOther : path ≠ tableAt n := by
    rintro rfl
    rw [hNew] at he
    cases he
  rw [h.others path hPath hOther, he]

/-- The directory of the results is made only if nothing has its name. -/
theorem keeps_of_makeDirectory {t made : FileTree}
    (hMade : t.makeDirectory resultFolder = .ok made) : Keeps t made := by
  obtain ⟨hFolder, hOther⟩ := FileTree.of_makeDirectory_eq_ok isName_resultFolder hMade
  intro path e _ he
  by_cases hPath : path = resultFolder
  · subst hPath
    cases e with
    | directory => exact hFolder
    | file content =>
        rw [FileTree.makeDirectory, FileTree.withoutLastSlashes_name isName_resultFolder,
          FileTree.resolve_name_some isName_resultFolder he] at hMade
        cases hMade
  · rw [hOther path hPath, he]

/-- Saving keeps every result table. -/
theorem keeps_save (w : Workbench) : Keeps w.files w.save.value.files := by
  rcases w.save_cases with hSame | ⟨-, content, hStored⟩
  · rw [hSame]
    exact .refl _
  · rw [hStored]
    intro path e hPath he
    exact (FileTree.getElem?_insert_entry ..).trans ((if_neg hPath.symm).trans he)

/-- Loading the backup changes no file. -/
theorem load_files (w : Workbench) :
    w.load.value.files = w.files ∧ w.load.value.history = w.history := by
  unfold Workbench.load
  split
  · simp only
    split <;> exact ⟨rfl, rfl⟩
  · exact ⟨rfl, rfl⟩

namespace Campaign

variable {c : Campaign} {w : Workbench} {made : FileTree}

/-- How a run comes to its table. -/
theorem run_eq_of_load (hMade : w.files.makeDirectory resultFolder = .ok made)
    {loaded : Workbench} (hLoad : (w.store made).load = .done loaded) {n : Nat}
    (hPath : made.freePath tablePath = tableAt n) :
    ∃ start : Workbench, start.files = made ∧ start.history = w.files :: w.history ∧
      c.run w = (startTable start (tableAt n)).bind fun w =>
        c.runContestants (tableAt n) w c.contestants := by
  obtain ⟨hFiles, hHistory⟩ := load_files (w.store made)
  rw [hLoad] at hFiles hHistory
  have hPath' : loaded.files.freePath tablePath = tableAt n := by
    rw [show loaded.files = made from hFiles, hPath]
  refine ⟨loaded.printLine (">> Results will be written to: " ++ tableAt n), hFiles, hHistory, ?_⟩
  rw [run, Workbench.prepare, hMade]
  simp only [hLoad, Reached.done_bind, hPath']

/-- A new table has a new name. -/
theorem new_of_freePath (hFolder : made[resultFolder]? = some .directory) {n : Nat}
    (hPath : made.freePath tablePath = tableAt n) (hShort : n < 10 ^ 239) :
    made[tableAt n]? = none := by
  obtain ⟨n', -, hPath', hFree, -⟩ := exists_freePath_tablePath made
  obtain rfl := tableAt_injective (hPath.symm.trans hPath')
  rwa [present_tableAt hFolder hShort, Option.isSome_eq_false_iff,
    Option.isNone_iff_eq_none] at hFree

/-- The files at the moments of a run: as before, or with the directory of the results, or with a
table that was not there. -/
inductive Moment (w : Workbench) : FileTree → Prop where
  | before : Moment w w.files
  | prepared {made : FileTree} (hMade : w.files.makeDirectory resultFolder = .ok made) :
      Moment w made
  | written {made t : FileTree} {n : Nat} (hMade : w.files.makeDirectory resultFolder = .ok made)
      (hNew : made[tableAt n]? = none) (hLeft : LeftBy n made t) : Moment w t

/-- At every moment of a run the tables from before it stand as they stood. -/
theorem Moment.keeps {t : FileTree} (h : Moment w t) : Keeps w.files t := by
  cases h with
  | before => exact .refl _
  | prepared hMade => exact keeps_of_makeDirectory hMade
  | written hMade hNew hLeft => exact (keeps_of_makeDirectory hMade).trans (hLeft.keeps hNew)

/-- At no moment of a run is the folder of results turned into a file. -/
theorem Moment.folder {t : FileTree} (h : Moment w t)
    (hFolder : ∀ content, w.files[resultFolder]? ≠ some (.file content)) (content : List UInt8) :
    t[resultFolder]? ≠ some (.file content) := by
  cases h with
  | before => exact hFolder content
  | prepared hMade =>
      rw [(FileTree.of_makeDirectory_eq_ok isName_resultFolder hMade).1]
      simp
  | written hMade hNew hLeft =>
      rw [hLeft.folder]
      simp

/-- A run goes through such files only. -/
theorem run_moments (c : Campaign) (w : Workbench) :
    ∃ during, (c.run w).value.snapshots = during ++ w.snapshots ∧ ∀ t ∈ during, Moment w t := by
  cases hMade : w.files.makeDirectory resultFolder with
  | error e =>
      refine ⟨[], ?_, List.forall_mem_nil _⟩
      rw [run, Workbench.prepare, hMade]
      rfl
  | ok made =>
      have hPrepared : ∀ t ∈ [made], Moment w t := List.forall_mem_singleton.2 (.prepared hMade)
      have hFolder := (FileTree.of_makeDirectory_eq_ok isName_resultFolder hMade).1
      obtain ⟨n, -, hPath, -⟩ := exists_freePath_tablePath made
      cases hFault : (w.store made).load.fault with
      | some fault =>
          have hRun : c.run w = (w.store made).load := by
            rw [run, Workbench.prepare, hMade]
            simp only [Reached.bind, hFault]
          obtain ⟨hFiles, hHistory⟩ := load_files (w.store made)
          refine ⟨_, ?_, hPrepared⟩
          rw [hRun, Workbench.snapshots, hFiles, hHistory]
          rfl
      | none =>
          have hLoad : (w.store made).load = .done (w.store made).load.value := by
            rw [Reached.done, ← hFault]
          obtain ⟨start, hFiles, hHistory, hRun⟩ := run_eq_of_load (c := c) hMade hLoad hPath
          have hSnapshots : start.snapshots = [made] ++ w.snapshots := by
            rw [Workbench.snapshots, hFiles, hHistory]
            rfl
          have hStartFolder : start.files[resultFolder]? = some .directory := by
            rw [hFiles, hFolder]
          rw [hRun]
          rcases startTable_cases hStartFolder n with ⟨_, _, _, hStop⟩ | hWorks
          · refine ⟨_, ?_, hPrepared⟩
            rw [hStop]
            exact hSnapshots
          · have hEnd := hWorks.bind fun w hNext => worksAt_runContestants c hNext c.contestants
            obtain ⟨during, hTrees, hDuring⟩ := hEnd.trees
            have hNew := new_of_freePath hFolder hPath hEnd.short
            refine ⟨during ++ [made], ?_, List.forall_mem_append.2 ⟨fun t ht => ?_, hPrepared⟩⟩
            · rw [hTrees, hSnapshots, List.append_assoc]
            · have hLeft := hDuring t ht
              rw [hFiles] at hLeft
              exact .written hMade hNew hLeft

/-- The end of a run is one of its moments. -/
theorem moment_run (c : Campaign) (w : Workbench) : Moment w (c.run w).value.files := by
  obtain ⟨during, hTrees, hDuring⟩ := c.run_moments w
  cases during with
  | nil =>
      rw [Workbench.snapshots, Workbench.snapshots, List.nil_append, List.cons.injEq] at hTrees
      rw [hTrees.1]
      exact .before
  | cons t during =>
      rw [Workbench.snapshots, List.cons_append, List.cons.injEq] at hTrees
      rw [hTrees.1]
      exact hDuring t List.mem_cons_self

/-- The files at some moment of a run, from its start to its end. -/
def Reaches (c : Campaign) (w : Workbench) (t : FileTree) : Prop :=
  ∃ during, (c.run w).value.snapshots = during ++ w.history ∧ t ∈ during

/-- Every state of the files that a run can be interrupted in is one of its moments. -/
theorem Reaches.moment {t : FileTree} (h : c.Reaches w t) : Moment w t := by
  obtain ⟨_, hTrees, hMem⟩ := h
  obtain ⟨during, hTrees', hDuring⟩ := c.run_moments w
  rw [hTrees', Workbench.snapshots, List.append_cons, List.append_left_inj] at hTrees
  rw [← hTrees, List.mem_append, List.mem_singleton] at hMem
  rcases hMem with hMem | rfl
  · exact hDuring t hMem
  · exact .before

/-- A run whose backup can be read writes a new table, if there are names for it. -/
theorem run_creates (c : Campaign) (hMade : w.files.makeDirectory resultFolder = .ok made)
    {loaded : Workbench} (hLoad : (w.store made).load = .done loaded)
    (hNames : made.size + 1 < 10 ^ 239) :
    w.files[resultTable w.files]? = none ∧
      ∃ content, (c.run w).value.files[resultTable w.files]? = some (.file content) := by
  obtain ⟨hFolder, hSame⟩ := FileTree.of_makeDirectory_eq_ok isName_resultFolder hMade
  obtain ⟨n, hLast, hPath, -⟩ := exists_freePath_tablePath made
  have hShort : n < 10 ^ 239 := Nat.lt_of_le_of_lt hLast hNames
  have hNew := new_of_freePath hFolder hPath hShort
  have hTable : resultTable w.files = tableAt n := by
    simp only [resultTable, hMade, hPath]
  obtain ⟨start, hFiles, -, hRun⟩ := run_eq_of_load (c := c) hMade hLoad hPath
  have hWorks : Workbench.WorksAt n start (startTable start (tableAt n)).value := by
    have hStartFolder : start.files[resultFolder]? = some .directory := by rw [hFiles, hFolder]
    rcases startTable_cases hStartFolder n with ⟨content, problem, hWrite, -⟩ | hWorks
    · have hOther : made[tableAt n]? ≠ some .directory := by
        rw [hNew]
        exact (Option.some_ne_none _).symm
      have hOk := FileTree.write_inFolder isName_resultFolder (isName_tableName hShort) hFolder
        hOther content
      rw [hFiles] at hWrite
      cases hOk.symm.trans hWrite
    · exact hWorks
  obtain ⟨content, hContent⟩ := (hWorks.bind fun w hNext =>
    worksAt_runContestants c hNext c.contestants).current.table
  rw [hTable, hRun]
  exact ⟨(hSame _ (resultFolder_ne_inFolder _).symm).symm.trans hNew, content, hContent⟩

end Campaign

/-- A bench after any number of runs. They follow one another in one process, in which the
statistics may also be saved between them, or a process ends at some moment of a run and another one
starts from the files. A process that ends by itself saves its statistics and ends after that. -/
inductive Later (w : Workbench) : Workbench → Prop where
  | same : Later w w
  | run {w' : Workbench} (h : Later w w') (c : Campaign) : Later w (c.run w').value
  | saved {w' : Workbench} (h : Later w w') : Later w w'.save.value
  | restart {w' : Workbench} {c : Campaign} {t : FileTree} {depth : Depth} (h : Later w w')
      (hReaches : c.Reaches w' t) : Later w (.ofFiles t depth)

namespace Later

variable {w w' : Workbench} {first : FileTree}

/-- Runs keep all but the backup, whatever the statistics are. -/
theorem keeps (h : Later w w') : Keeps w.files w'.files := by
  induction h with
  | same => exact .refl _
  | run _ c ih => exact ih.trans (c.moment_run _).keeps
  | saved _ ih => exact ih.trans (keeps_save _)
  | restart _ hReaches ih => exact ih.trans hReaches.moment.keeps

/-- Over any number of later runs the folder of results is never turned into a file. -/
theorem folder (h : Later w w') (hFolder : ∀ content, w.files[resultFolder]? ≠ some (.file content))
    (content : List UInt8) : w'.files[resultFolder]? ≠ some (.file content) := by
  induction h generalizing content with
  | same => exact hFolder content
  | run _ c ih => exact (c.moment_run _).folder ih content
  | @saved w' _ ih =>
      rcases w'.save_cases with hSame | ⟨hThere, written, hStored⟩
      · rw [hSame]
        exact ih content
      · have hOther : backupPath ≠ resultFolder := by decide
        rw [hStored]
        show (w'.files.insert backupPath _)[resultFolder]? ≠ _
        rw [FileTree.getElem?_insert_entry, if_neg hOther, hThere]
        rintro ⟨⟩
  | restart _ hReaches ih => exact hReaches.moment.folder ih content

/-- Runs that start without a backup are a history of calls. -/
theorem exists_history {depth : Depth} (hBackup : first[backupPath]? = none)
    (h : Later (.ofFiles first depth) w) :
    ∃ calls, History (fun _ => True) (fun _ => True) calls w := by
  induction h with
  | same => exact ⟨[], .start hBackup⟩
  | run _ c ih =>
      obtain ⟨calls, hCalls⟩ := ih
      exact ⟨_, hCalls.call trivial fun _ _ => trivial⟩
  | saved _ ih =>
      obtain ⟨calls, hCalls⟩ := ih
      exact ⟨calls, hCalls.saved⟩
  | @restart w' c t depth _ hReaches ih =>
      obtain ⟨calls, hCalls⟩ := ih
      obtain ⟨during, hTrees, hMem⟩ := hReaches
      have hSnapshot : t ∈ (c.run w').value.snapshots :=
        hTrees ▸ List.mem_append_left w'.history hMem
      exact ⟨_, (hCalls.call trivial fun _ _ => trivial).restart hSnapshot⟩

/-- A further run writes a new table. -/
theorem creates {depth : Depth} (hBackup : first[backupPath]? = none)
    (hFolder : ∀ content, first[resultFolder]? ≠ some (.file content))
    (h : Later (.ofFiles first depth) w)
    (hNames : (tableName (w.files.size + 2)).utf8ByteSize ≤ FileTree.nameLimit) (c : Campaign) :
    w.files[resultTable w.files]? = none ∧
      ∃ content, (c.run w).value.files[resultTable w.files]? = some (.file content) := by
  obtain ⟨made, hMade, hSize⟩ : ∃ made, w.files.makeDirectory resultFolder = .ok made ∧
      made.size ≤ w.files.size + 1 := by
    cases hEntry : w.files[resultFolder]? with
    | none =>
        exact ⟨_, FileTree.makeDirectory_none isName_resultFolder hEntry,
          Std.ExtTreeMap.size_insert_le⟩
    | some e =>
        cases e with
        | directory =>
            exact ⟨_, FileTree.makeDirectory_some isName_resultFolder hEntry, Nat.le_succ _⟩
        | file content => exact absurd hEntry (h.folder hFolder content)
  obtain ⟨hThere, hSame⟩ := FileTree.of_makeDirectory_eq_ok isName_resultFolder hMade
  obtain ⟨calls, hCalls⟩ := h.exists_history hBackup
  obtain ⟨l, hKept⟩ := hCalls.exists_kept
  have hStored : Kept (fun _ _ s => s.Coherent) (w.store made) l := hKept.store (by
    rw [hSame backupPath (by decide)]
    exact hKept.backups w.files List.mem_cons_self)
  obtain ⟨loaded, -, hLoad, -⟩ := hStored.load hThere
  have hEnough := lt_of_short hNames
  exact c.run_creates hMade hLoad (by omega)

end Later

/-- The path of a table is the base or the first numbered path that is not in use; numbered paths
are different, and one number more than there are entries is enough. In any number of runs, with
restarts at every moment, no table of an earlier run is changed or removed, nor is anything else but
the backup. Every run writes a table that was not there before, if there was no backup at the
beginning, nothing else has the name of the directory, and the numbers fit into names.

A base may be any path. What lies outside the tree is not in use, so a base that leads there is
free; the paths of the runs themselves lie in the tree. -/
theorem freePath_new_tables_kept :
    (∀ (t : FileTree) (base : String), ".csv".toList <:+: base.toList →
      Function.Injective (numberedPath base) ∧ t.present (t.freePath base) = false ∧
        (t.present base = false → t.freePath base = base) ∧
        (t.present base = true → ∃ n, 1 ≤ n ∧ n ≤ t.size + 1 ∧
          t.freePath base = numberedPath base n ∧
          ∀ m, 1 ≤ m → m < n → t.present (numberedPath base m) = true)) ∧
      (∀ w w' : Workbench, Later w w' → Keeps w.files w'.files) ∧
      ∀ first : FileTree, first[backupPath]? = none →
        (∀ content, first[resultFolder]? ≠ some (.file content)) →
        ∀ (depth : Depth) (w : Workbench), Later (.ofFiles first depth) w →
          (tableName (w.files.size + 2)).utf8ByteSize ≤ FileTree.nameLimit →
          ∀ c : Campaign, w.files[resultTable w.files]? = none ∧
            ∃ content, (c.run w).value.files[resultTable w.files]? = some (.file content) := by
  refine ⟨fun t base hSuffix => ⟨numberedPath_injective hSuffix, ?_⟩, fun _ _ h => h.keeps,
    fun _ hBackup hFolder _ _ h hNames c => h.creates hBackup hFolder hNames c⟩
  rcases t.freePath_cases hSuffix with
    ⟨hFree, hPath⟩ | ⟨hUsed, n, hFirst, hLast, hPath, hFree, hBefore⟩
  · refine ⟨by rw [hPath, hFree], fun _ => hPath, fun hUsed => ?_⟩
    rw [hFree] at hUsed
    cases hUsed
  · refine ⟨by rw [hPath, hFree], fun hFree => ?_, fun _ => ⟨n, hFirst, hLast, hPath, hBefore⟩⟩
    rw [hUsed] at hFree
    cases hFree

/-- A first run writes a table, and it keeps the instance, which is the only file at the
beginning; so does a second one. -/
theorem freePath_new_tables_kept_twice :
    let first := Workbench.ofFiles Campaign.twiceFiles
    let once := (Campaign.twice.run first).value
    Campaign.twiceFiles.present (Campaign.twiceFiles.freePath tablePath) = false ∧
      (∃ content, once.files[resultTable Campaign.twiceFiles]? = some (.file content)) ∧
      (Campaign.twice.run once).value.files["a.cnf"]? =
        some (.file (Utf8.encode Dimacs.spreadText)) := by
  intro first once
  obtain ⟨hPaths, hKeeps, hCreates⟩ := freePath_new_tables_kept
  have hSuffix : ".csv".toList <:+: tablePath.toList := ⟨"results/benchmark".toList, [], by decide⟩
  have hEntry : ∀ path, Campaign.twiceFiles[path]? =
      if "a.cnf" = path then some (.file (Utf8.encode Dimacs.spreadText)) else none := by
    intro path
    rw [Campaign.twiceFiles, Dimacs.oneFile, FileTree.getElem?_insert_entry]
    rfl
  have hBackup : Campaign.twiceFiles[backupPath]? = none :=
    (hEntry backupPath).trans (if_neg (by decide))
  have hFolder : ∀ content, Campaign.twiceFiles[resultFolder]? ≠ some (.file content) := by
    intro content
    rw [hEntry, if_neg (by decide)]
    exact (Option.some_ne_none _).symm
  have hNames : (tableName (Campaign.twiceFiles.size + 2)).utf8ByteSize ≤ FileTree.nameLimit := by
    have hSize : Campaign.twiceFiles.size = 1 := rfl
    rw [hSize]
    decide
  have hTwice : Later first (Campaign.twice.run once).value := (Later.same.run _).run _
  refine ⟨(hPaths _ _ hSuffix).2.1, (hCreates _ hBackup hFolder .usual first .same hNames _).2,
    hKeeps _ _ hTwice "a.cnf" _ (by decide) ?_⟩
  exact (hEntry "a.cnf").trans (if_pos rfl)

end Benchmark

end SatLab
