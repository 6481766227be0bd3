import SatLab.Proofs.Benchmark.Moderate
import SatLab.Proofs.Dimacs.Reading

/-! Interrupted campaigns. A run that is stopped leaves files from which the next run goes on, and
however many runs are stopped, the one that comes to its end ends as if none had been. -/

namespace SatLab

namespace Benchmark

/-- What a run starts from: no backup, one that holds a ledger, or one that is no document. -/
def Resumes (t : FileTree) (l : Ledger) : Prop :=
  t[backupPath]? = none ∧ l = [] ∨
  (l.Distinct ∧ l.Writable ∧ t[backupPath]? = some (.file (Utf8.encode l.text))) ∨
  l = [] ∧ ∃ text, IsCut text ∧ t[backupPath]? = some (.file (Utf8.encode text))

/-- Whatever an interrupted run leaves, a later run takes up some ledger that the backup can have
held. -/
theorem Leftover.resumes {files t : FileTree} {Good : Ledger → Prop} {count : Nat}
    (h : Leftover files Good count t) (hNone : Good []) : ∃ l, Good l ∧ Resumes t l := by
  have hBackup := h.backup
  cases hEntry : t[backupPath]? with
  | none => exact ⟨[], hNone, .inl ⟨hEntry, rfl⟩⟩
  | some entry =>
      rw [hEntry] at hBackup
      cases hBackup with
      | @ledger l hGood hDistinct hWritable =>
          exact ⟨l, hGood, .inr (.inl ⟨hDistinct, hWritable, hEntry⟩)⟩
      | @cut text hText => exact ⟨[], hNone, .inr (.inr ⟨rfl, text, hText, hEntry⟩)⟩

/-- The statistics of a run are those of the backup. -/
theorem load_eq {w : Workbench} {l : Ledger} (hFolder : w.files[resultFolder]? = some .directory)
    (hStatistics : w.statistics = .empty) (h : Resumes w.files l) :
    ∃ w', w.load = .done w' ∧ w'.statistics = l.statistics ∧ w'.files = w.files ∧
      w'.history = w.history ∧ w'.attempts = w.attempts ∧ l.Writable ∧
      (l = [] ∨ Saved w' l) := by
  rcases h with ⟨hMissing, rfl⟩ | ⟨hDistinct, hWritable, hBackup⟩ | ⟨rfl, text, hText, hBackup⟩
  · refine ⟨w, load_none hFolder hMissing, ?_, rfl, rfl, rfl, List.forall_mem_nil _, .inl rfl⟩
    rw [hStatistics]
    rfl
  · obtain ⟨line, hLoad⟩ := load_text hFolder hBackup hDistinct hWritable rfl
    exact ⟨_, hLoad, rfl, rfl, rfl, rfl, hWritable, .inr hBackup⟩
  · obtain ⟨line, line', hLoad⟩ := load_cut hFolder hBackup hText
    exact ⟨_, hLoad, rfl, rfl, rfl, rfl, List.forall_mem_nil _, .inl rfl⟩

/-- A table that is written in part, or not as the run had it, does not matter to the next run. -/
theorem Leftover.write_table {files t left : FileTree} {Good : Ledger → Prop} {count n : Nat}
    (h : Leftover files Good count t) (hFiles : NoResults files) (hn : n < count)
    (hShort : n < 10 ^ 239) {content : List UInt8}
    (hWrite : t.write (tableAt n) content = .ok left) :
    Leftover files Good count left := by
  have hName := isName_tableName hShort
  rcases h.folder with hMissing | hThere
  · obtain ⟨fault, hFault⟩ := FileTree.write_missing isName_resultFolder hName hMissing content
    rw [← tableAt, hWrite] at hFault
    cases hFault
  · rw [tableAt] at hWrite
    rw [FileTree.eq_insert_of_write isName_resultFolder hName hThere hWrite, ← tableAt]
    exact h.insertTable hFiles hn content

/-- The table a run from these files writes. -/
def resultTable (files : FileTree) : String :=
  match files.makeDirectory resultFolder with
  | .ok made => made.freePath tablePath
  | .error _ => tablePath

namespace Campaign

variable {c : Campaign} {files t : FileTree} {count : Nat} {depth : Depth}

/-- Where the contestants start. -/
theorem run_start (hFiles : NoResults files)
    (h : Leftover files (c.Known files c.contestants) count t) (hShort : count < 10 ^ 239)
    {l : Ledger} (hResumes : Resumes t l) :
    ∃ n ≤ count, resultTable t = tableAt n ∧ ∃ w : Workbench,
      c.run (.ofFiles t depth) = c.runContestants (tableAt n) w c.contestants ∧
      Standing files (c.Known files c.contestants) (count + 1) n w l ∧ w.attempts = [] ∧
      (l = [] ∨ Saved w l) := by
  obtain ⟨made, hMade, hLeftover, hFolder, hBackup⟩ : ∃ made : FileTree,
      t.makeDirectory resultFolder = .ok made ∧
      Leftover files (c.Known files c.contestants) count made ∧
      made[resultFolder]? = some .directory ∧ made[backupPath]? = t[backupPath]? := by
    rcases h.folder with hMissing | hThere
    · have hOther : resultFolder ≠ backupPath := by decide
      refine ⟨_, FileTree.makeDirectory_none isName_resultFolder hMissing,
        h.makeFolder hMissing, ?_, ?_⟩
      · rw [FileTree.getElem?_insert_entry, if_pos rfl]
      · rw [FileTree.getElem?_insert_entry, if_neg hOther]
    · exact ⟨t, FileTree.makeDirectory_some isName_resultFolder hThere, h, hThere, rfl⟩
  have hResumed : Resumes made l := by rwa [Resumes, hBackup]
  obtain ⟨n, hn, hPath, hFree⟩ :=
    freePath_tablePath hFolder hShort (hLeftover.tables count (Nat.le_refl _))
  have hTable : resultTable t = tableAt n := by
    simp only [resultTable, hMade, hPath]
  obtain ⟨w₁, hLoad, hStatistics, hFiles₁, hHistory, hAttempts, hWritable, hSaved⟩ :=
    load_eq (w := (Workbench.ofFiles t depth).store made) hFolder rfl hResumed
  have hSnapshots : ∀ tree ∈ w₁.snapshots,
      Leftover files (c.Known files c.contestants) (count + 1) tree := by
    rw [Workbench.snapshots, hFiles₁, hHistory]
    intro tree hTree
    have hCases : tree = made ∨ tree = t := by
      simpa [Workbench.store, Workbench.ofFiles] using hTree
    rcases hCases with rfl | rfl
    · exact hLeftover.mono (Nat.le_succ _)
    · exact h.mono (Nat.le_succ _)
  have hMade₁ : w₁.files = made := hFiles₁
  let printed := w₁.printLine (">> Results will be written to: " ++ tableAt n)
  obtain ⟨w, hStart, hStanding, hAttempts', hBackup'⟩ := startTable_eq (w := printed) hFiles
    (Nat.lt_succ_of_le hn) (Nat.lt_of_le_of_lt hn hShort) hStatistics hWritable hSnapshots
    (by rw [← hFolder, ← hMade₁]; rfl) (by rw [← hFree, ← hMade₁]; rfl)
  refine ⟨n, hn, hTable, w, ?_, hStanding, hAttempts'.trans hAttempts,
    hSaved.imp_right fun hSome => ?_⟩
  · have hPath₁ : w₁.files.freePath tablePath = tableAt n := by
      rw [hMade₁, hPath]
    rw [run, Workbench.prepare, Workbench.ofFiles]
    simp only [hMade]
    rw [← Workbench.ofFiles, hLoad, Reached.done_bind, hPath₁, hStart, Reached.done_bind]
  · rw [Saved, hBackup']
    exact hSome

/-- A run keeps to the course of the ledger from whatever is there. -/
theorem run_eq (hRepeat : c.Repeatable files)
    (h : Leftover files (c.Known files c.contestants) count t) (hShort : count < 10 ^ 239)
    (depth : Depth) {l : Ledger} (hKnown : c.Known files c.contestants l) (hResumes : Resumes t l) :
    ∃ n ≤ count, resultTable t = tableAt n ∧ ∃ w : Workbench, w.attempts = [] ∧
      (l = [] ∨ Saved w l) ∧
      c.KeepsLedger files (count + 1) n [] c.contestants l w (c.run (.ofFiles t depth)) := by
  obtain ⟨n, hn, hTable, w, hRun, hStanding, hAttempts, hSaved⟩ :=
    run_start hRepeat.noResults h hShort hResumes
  refine ⟨n, hn, hTable, w, hAttempts, hSaved, ?_⟩
  rw [hRun]
  exact runContestants_eq hRepeat (Nat.lt_succ_of_le hn) (Nat.lt_of_le_of_lt hn hShort)
    (List.forall_mem_nil _) (List.nil_append _).symm hKnown hStanding

/-- What a run comes to depends on the course of the ledger alone. -/
theorem run_course (hRepeat : c.Repeatable files)
    (h : Leftover files (c.Known files c.contestants) count t) (hShort : count < 10 ^ 239)
    (depth : Depth) :
    let run := c.run (.ofFiles t depth)
    let course := c.ledgerCourse files c.contestants
    run.fault = course.fault.map .misuse ∧ run.value.statistics = course.value.statistics ∧
      run.value.files.read (resultTable t) = .ok (Utf8.encode (tableText course.value.rows)) := by
  obtain ⟨l, hKnown, hResumes⟩ := h.resumes (.none _)
  obtain ⟨n, hn, hTable, w, -, -, hCourse⟩ := run_eq hRepeat h hShort _ hKnown hResumes
  have hStanding := hCourse.follows.value
  refine ⟨hCourse.follows.fault, hStanding.statistics, ?_⟩
  rw [hTable]
  exact FileTree.read_inFolder isName_resultFolder
    (isName_tableName (Nat.lt_of_le_of_lt hn hShort)) hStanding.folder hStanding.table

/-- The table of a run can be written anew, whatever its content. -/
theorem exists_torn (hRepeat : c.Repeatable files)
    (h : Leftover files (c.Known files c.contestants) count t) (hShort : count < 10 ^ 239)
    (depth : Depth) (content : List UInt8) :
    ∃ left, (c.run (.ofFiles t depth)).value.files.write (resultTable t) content = .ok left ∧
      left.read (resultTable t) = .ok content := by
  obtain ⟨l, hKnown, hResumes⟩ := h.resumes (.none _)
  obtain ⟨n, hn, hTable, w, -, -, hCourse⟩ := run_eq hRepeat h hShort _ hKnown hResumes
  have hStanding := hCourse.follows.value
  have hTableName := isName_tableName (Nat.lt_of_le_of_lt hn hShort)
  have hNew := FileTree.getElem?_insert_entry (c.run (.ofFiles t depth)).value.files (tableAt n)
  have hFolder : ((c.run (.ofFiles t depth)).value.files.insert (tableAt n)
      (.file content))[resultFolder]? = some .directory := by
    have hOther : tableAt n ≠ resultFolder := (resultFolder_ne_inFolder _).symm
    rw [hNew, if_neg hOther]
    exact hStanding.folder
  rw [hTable]
  refine ⟨_, FileTree.write_inFolder isName_resultFolder hTableName hStanding.folder ?_ content,
    FileTree.read_inFolder isName_resultFolder hTableName hFolder ?_⟩
  · rw [← tableAt, hStanding.table]
    rintro ⟨⟩
  · rw [← tableAt, hNew, if_pos rfl]

/-- After a run that has come to its end there is nothing left to do. -/
theorem attempts_after_end {depth' : Depth} (hRepeat : c.Repeatable files)
    (h : Leftover files (c.Known files c.contestants) count t) (hShort : count + 1 < 10 ^ 239)
    (hEnd : (c.ledgerCourse files c.contestants).fault = none) :
    (c.run (.ofFiles (c.run (.ofFiles t depth)).value.files depth')).value.attempts = [] := by
  obtain ⟨l, hKnown, hResumes⟩ := h.resumes (.none _)
  obtain ⟨n, hn, hTable, w, -, hSaved, hCourse⟩ := run_eq hRepeat h (by omega) _ hKnown hResumes
  have hLeftover := hCourse.follows.value.current
  have hFinished := ledgerCourse_eq_done hEnd
  obtain ⟨l', hKnown', hResumes', hDone⟩ : ∃ l', c.Known files c.contestants l' ∧
      Resumes (c.run (.ofFiles t depth)).value.files l' ∧
      (c.groups = [] ∨ c.Finished files c.contestants l') := by
    by_cases hNothing : c.groups = [] ∨ c.contestants = []
    · obtain ⟨l', hKnown', hResumes'⟩ := hLeftover.resumes (.none _)
      refine ⟨l', hKnown', hResumes', hNothing.imp_right fun hNone => ?_⟩
      rw [hNone] at hKnown' ⊢
      cases hKnown'
      exact ⟨List.forall_mem_nil _, rfl⟩
    · rw [not_or] at hNothing
      refine ⟨(c.ledgerCourse files c.contestants).value, ?_, ?_, .inr hFinished⟩
      · rw [hFinished.2]
        exact .ofPasses hFinished.1
      · have hStart : Saved w l ∨ ¬c.Finished files c.contestants l := by
          refine hSaved.symm.imp_right ?_
          rintro rfl ⟨-, hFull⟩
          exact hNothing.2 (List.map_eq_nil_iff.1 hFull.symm)
        have hLast := hCourse.saved hEnd hNothing.1 hStart
        refine .inr (.inl ⟨?_, ?_, hLast⟩)
        · rw [hFinished.2]
          exact distinct_fullLedger hRepeat.labels
        · rw [hFinished.2]
          exact writable_fullLedger hFinished.1
  obtain ⟨_, _, _, w', hAttempts, _, hNext⟩ := run_eq hRepeat hLeftover hShort _ hKnown' hResumes'
  rw [hNext.attempts hDone, hAttempts]

/-- Files that runs can leave behind which are stopped one after the other: all the files as they
were at some moment of the last run, or these but for a table that is written in part. A run that
has come to its end may also have its statistics saved once more, as they are when its process ends
by itself. After a fault this would be another matter: a folder whose summary cannot be made is
marked as completed all the same, and a run that starts from this mark passes over the fault. -/
inductive Interrupted (c : Campaign) (files : FileTree) : Nat → FileTree → Prop where
  | never : Interrupted c files 0 files
  | stopped {count : Nat} {start left : FileTree} {depth : Depth}
      (h : Interrupted c files count start)
      (hLeft : left ∈ (c.run (.ofFiles start depth)).value.snapshots) :
      Interrupted c files (count + 1) left
  | torn {count : Nat} {start tree left : FileTree} {content : List UInt8} {depth : Depth}
      (h : Interrupted c files count start)
      (hTree : tree ∈ (c.run (.ofFiles start depth)).value.snapshots)
      (hTable : tree.write (resultTable start) content = .ok left) :
      Interrupted c files (count + 1) left
  | ended {count : Nat} {start : FileTree} {depth : Depth} (h : Interrupted c files count start)
      (hEnd : (c.run (.ofFiles start depth)).fault = none) :
      Interrupted c files (count + 1) (c.run (.ofFiles start depth)).value.save.value.files

/-- Saving the statistics of a run that has come to its end changes nothing that matters. -/
theorem leftover_save (hRepeat : c.Repeatable files)
    (h : Leftover files (c.Known files c.contestants) count t) (hShort : count < 10 ^ 239)
    (hEnd : (c.run (.ofFiles t depth)).fault = none) :
    Leftover files (c.Known files c.contestants) (count + 1)
      (c.run (.ofFiles t depth)).value.save.value.files := by
  obtain ⟨l, hKnown, hResumes⟩ := h.resumes (.none _)
  obtain ⟨n, hn, -, w, -, -, hCourse⟩ :=
    run_eq hRepeat h hShort depth hKnown hResumes
  have hCourseEnd : (c.ledgerCourse files c.contestants).fault = none := by
    rwa [hCourse.follows.fault, Option.map_eq_none_iff] at hEnd
  have hFinished := ledgerCourse_eq_done hCourseEnd
  have hStanding := hCourse.follows.value
  rw [hFinished.2] at hStanding
  have hKnownAll : c.Known files c.contestants (c.fullLedger files c.contestants) :=
    .ofPasses hFinished.1
  rcases hStanding.save hRepeat.noResults (fun _ => hKnownAll)
    (distinct_fullLedger hRepeat.labels) with ⟨-, w', hSave, hNext, -⟩ | ⟨-, w', hSave, hNext⟩
  · rw [hSave]
    exact hNext.current
  · rw [hSave]
    exact hNext.current

/-- Whatever is left behind can be gone on from. -/
theorem Interrupted.leftover {left : FileTree} (h : c.Interrupted files count left)
    (hRepeat : c.Repeatable files) (hShort : count < 10 ^ 239) :
    Leftover files (c.Known files c.contestants) count left := by
  have hRun : ∀ {count start depth}, Leftover files (c.Known files c.contestants) count start →
      count + 1 < 10 ^ 239 → ∃ n ≤ count, resultTable start = tableAt n ∧
        ∀ tree ∈ (c.run (.ofFiles start depth)).value.snapshots,
          Leftover files (c.Known files c.contestants) (count + 1) tree := by
    intro count start depth hStart hShort
    obtain ⟨l, hKnown, hResumes⟩ := hStart.resumes (.none _)
    obtain ⟨n, hn, hTable, w, -, -, hCourse⟩ := run_eq hRepeat hStart (by omega) _ hKnown hResumes
    exact ⟨n, hn, hTable, hCourse.follows.value.leftover⟩
  induction h with
  | never => exact .of_noResults hRepeat.noResults
  | stopped h hLeft ih =>
      obtain ⟨n, -, -, hTrees⟩ := hRun (ih (by omega)) hShort
      exact hTrees _ hLeft
  | torn h hTree hTable ih =>
      obtain ⟨n, hn, hName, hTrees⟩ := hRun (ih (by omega)) hShort
      rw [hName] at hTable
      exact (hTrees _ hTree).write_table hRepeat.noResults (by omega) (by omega) hTable
  | ended h hEnd ih => exact leftover_save hRepeat (ih (by omega)) (by omega) hEnd

/-- The last run of a campaign that is interrupted ends as a run that is not: with the same fault
if there is one, with the same statistics, and with the same table. There is no fault if the counts
of the solvers are moderate. Once it has come to its end, the next run makes no attempt. The tables
are numbered, and the last number has to fit into a name. How deep the documents may be that a bench
can read does not matter, nor need it be the same in all runs. -/
theorem run_resumes (hRepeat : c.Repeatable files) {left : FileTree}
    (hChain : c.Interrupted files count left)
    (hName : (tableName (count + 1)).utf8ByteSize ≤ FileTree.nameLimit)
    (depth depth' depth'' : Depth) :
    let once := c.run (.ofFiles files depth)
    let last := c.run (.ofFiles left depth')
    let next := c.run (.ofFiles last.value.files depth'')
    last.fault = once.fault ∧ last.value.statistics = once.value.statistics ∧
      (∃ content, once.value.files.read (resultTable files) = .ok content ∧
        last.value.files.read (resultTable left) = .ok content) ∧
      (c.Moderate files → once.fault = none) ∧
      (once.fault = none → next.fault = none ∧ next.value.attempts = []) := by
  intro once last next
  have hBound : count + 1 < 10 ^ 239 := lt_of_short hName
  have hFirst : Leftover files (c.Known files c.contestants) 0 files :=
    .of_noResults hRepeat.noResults
  have hLeft := hChain.leftover hRepeat (by omega)
  obtain ⟨hFault, hStatistics, hTable⟩ := run_course hRepeat hFirst (by omega) depth
  obtain ⟨hFault', hStatistics', hTable'⟩ := run_course hRepeat hLeft (by omega) depth'
  have hLater : c.Interrupted files (count + 1) last.value.files :=
    .stopped hChain List.mem_cons_self
  obtain ⟨hFault'', -, -⟩ := run_course hRepeat (hLater.leftover hRepeat hBound) hBound depth''
  refine ⟨hFault'.trans hFault.symm, hStatistics'.trans hStatistics.symm, ⟨_, hTable, hTable'⟩,
    fun hModerate => ?_, fun hEnd => ⟨?_, ?_⟩⟩
  · rw [hFault, hModerate.ledgerCourse]
    rfl
  · exact (hFault''.trans hFault.symm).trans hEnd
  · have hCourse : (c.ledgerCourse files c.contestants).fault = none := by
      rwa [hFault, Option.map_eq_none_iff] at hEnd
    exact attempts_after_end hRepeat hLeft hBound hCourse

/-- A solver that finds no model, on an instance given twice; the first time it takes too long. -/
def twice : Campaign where
  contestants := [{ label := "a", solver := .answering none 0 }]
  paths := [.ofString "a.cnf", .ofString "a.cnf"]
  trial a := { Trial.plain with hangs := decide (a.place = 0) }

/-- The instance. -/
def twiceFiles : FileTree := Dimacs.oneFile (Utf8.encode Dimacs.spreadText)

theorem ofFile_twiceFiles : Dimacs.ofFile twiceFiles "a.cnf" =
    .ok ([[1, -2, 1], [3]].map Dimacs.clauseOf) := by
  rw [Dimacs.ofFile, twiceFiles, Dimacs.read_oneFile]
  exact Dimacs.ofBytes_laidOut Dimacs.laidOut_spreadText

/-- The campaign of the two instances decides every instance the same way each time it is asked. -/
theorem repeatable_twice : twice.Repeatable twiceFiles where
  labels := List.nodup_singleton _
  fixed := by
    intro a b _ _ hPlace solver f
    simp only [twice, hPlace]
  readable := by
    have hText : (PathName.ofString "a.cnf").text = "a.cnf" := by decide
    simp only [twice, List.forall_mem_cons, hText]
    exact ⟨⟨_, ofFile_twiceFiles⟩, ⟨_, ofFile_twiceFiles⟩, List.forall_mem_nil _⟩
  noResults := by
    have hOther : ∀ path, path ≠ "a.cnf" → twiceFiles[path]? = none := by
      intro path hPath
      rw [twiceFiles, Dimacs.oneFile, FileTree.getElem?_insert_entry, if_neg (Ne.symm hPath)]
      exact Std.ExtTreeMap.getElem?_empty
    refine ⟨.inl (hOther _ (by decide)), fun name => hOther _ fun hName => ?_⟩
    have hChars := congrArg String.toList hName
    simp [FileTree.inFolder, resultFolder] at hChars

/-- The campaign of the two instances stays far below every bound on digits. -/
theorem moderate_twice : twice.Moderate twiceFiles where
  outcomes := by
    intro k hk p _ folder place m hm
    obtain rfl := List.mem_singleton.1 hk
    rw [outcome] at hm
    split at hm
    · rw [Trial.measure] at hm
      split at hm
      · cases hm
      · cases hm
        exact Nat.zero_le _
    · cases hm
  paths := by decide

/-- The row of the solver: one instance took too long, and one took no time. -/
def twiceRow : SummaryRow :=
  { solver := "a", folder := "", avgTime := "0.000000", minTime := "0.000000",
    maxTime := "0.000000", avgMemory := "0.00", minMemory := "0.00", maxMemory := "0.00",
    inconclusive := 1, failed := 0, decisions := "0.00" }

/-- The ledger that the campaign of the two instances comes to has one row. -/
theorem rows_twice : (twice.fullLedger twiceFiles twice.contestants).rows = [twiceRow] := by
  have hText : (PathName.ofString "a.cnf").text = "a.cnf" := by decide
  have hGroups : twice.groups = [("", twice.paths)] := by decide
  have hOutcomes : ∀ k : Contestant, twice.outcomes twiceFiles k "" twice.paths =
      [0, 1].map fun place => (twice.trial { solver := k.label, folder := "", place, number := 0 })
        |>.measure k.solver ([[1, -2, 1], [3]].map Dimacs.clauseOf) Trial.timeLimit := by
    intro k
    simp [outcomes, outcome, twice, hText, ofFile_twiceFiles]
  simp only [fullLedger, lastRecords, folderCourse, hGroups, hOutcomes, List.map_cons,
    List.map_nil]
  decide +kernel

/-- All runs come to their end. -/
theorem fault_twice {count : Nat} {left : FileTree} (h : twice.Interrupted twiceFiles count left)
    (hShort : count < 10 ^ 239) : (twice.run (.ofFiles left)).fault = none := by
  have hLeft := h.leftover repeatable_twice hShort
  rw [(run_course repeatable_twice hLeft hShort _).1, moderate_twice.ledgerCourse]
  rfl

/-- All runs come to the same ledger. -/
theorem statistics_twice {count : Nat} {left : FileTree}
    (h : twice.Interrupted twiceFiles count left) (hShort : count < 10 ^ 239) :
    (twice.run (.ofFiles left)).value.statistics =
      (twice.fullLedger twiceFiles twice.contestants).statistics := by
  have hLeft := h.leftover repeatable_twice hShort
  rw [(run_course repeatable_twice hLeft hShort _).2.1,
    (ledgerCourse_eq_done moderate_twice.ledgerCourse).2]

/-- The first run is stopped when its table is not yet written. -/
theorem run_resumes_twice :
    let once := twice.run (.ofFiles twiceFiles)
    twice.Repeatable twiceFiles ∧ (tableName 2).utf8ByteSize ≤ FileTree.nameLimit ∧
      once.fault = none ∧
      ∃ left, twice.Interrupted twiceFiles 1 left ∧ left.read (resultTable twiceFiles) = .ok [] ∧
        let last := twice.run (.ofFiles left)
        last.fault = none ∧ last.value.statistics = once.value.statistics ∧
          (twice.run (.ofFiles last.value.files)).value.attempts = [] := by
  intro once
  have hFirst : Leftover twiceFiles (twice.Known twiceFiles twice.contestants) 0 twiceFiles :=
    .of_noResults repeatable_twice.noResults
  obtain ⟨left, hTorn, hRead⟩ :=
    exists_torn repeatable_twice hFirst (Nat.pow_pos (by decide)) .usual []
  have hChain : twice.Interrupted twiceFiles 1 left := .torn .never List.mem_cons_self hTorn
  have hName : (tableName 2).utf8ByteSize ≤ FileTree.nameLimit := by decide
  obtain ⟨hFault, hStatistics, -, hEnd, hNext⟩ :=
    run_resumes repeatable_twice hChain hName .usual .usual .usual
  have hOnce : once.fault = none := hEnd moderate_twice
  exact ⟨repeatable_twice, hName, hOnce, left, hChain, hRead, hFault.trans hOnce, hStatistics,
    (hNext hOnce).2⟩

end Campaign

end Benchmark

end SatLab
