import SatLab.Proofs.Benchmark.Resumption
import SatLab.Proofs.Benchmark.Upkeep

/-! Runs of a campaign that upholds a rule. Wherever a run ends, the rule holds of all records in
the statistics and in every backup there has been, and the table of the run has the rows of the
statistics. -/

namespace SatLab

namespace Benchmark

/-- The work on a folder is done: its record is completed or counts all instances. -/
def Ledger.Dealt (label : String) (group : String × List PathName) (l : Ledger) : Prop :=
  ∃ s, l.record? label group.1 = some s ∧ (s.completed = true ∨ group.2.length ≤ s.completedTests)

/-- A folder that has been dealt with stays so while the ledger advances. -/
theorem Ledger.Dealt.mono {label : String} {group : String × List PathName} {l l' : Ledger}
    (h : l.Dealt label group) (hAdvances : l.Advances l') : l'.Dealt label group := by
  obtain ⟨s, hs, hDealt⟩ := h
  obtain ⟨s', hs', hLe, hSame⟩ := hAdvances _ _ _ hs
  refine ⟨s', hs', ?_⟩
  rcases hDealt with hCompleted | hAll
  · exact .inl (by rw [hSame hCompleted, hCompleted])
  · exact .inr (Nat.le_trans hAll hLe)

/-- A part of a run, from a ledger on: the table has the rows of the ledger it leads to, unless it
ends with a fault that is none of the given ones. -/
structure Upheld (start : Workbench) (Ends : Fault → Prop) (Good : Rule) (n : Nat) (l : Ledger)
    (Done : Ledger → Prop) (run : Reached Fault Workbench) : Prop where
  grows : start.Grows run.value
  averaged : run.fault ≠ some (.misuse .nothingToAverage)
  kept : (∀ stop, run.fault = some stop → Ends stop) → ∃ l',
    AtTable (Sound Good run.value) n run.value l' ∧ l.Advances l' ∧ (run.fault = none → Done l')

section Parts

variable {c : Campaign} {start : Workbench} {Ends : Fault → Prop} {Good : Rule} {n : Nat}
  {w : Workbench} {l l' : Ledger} {Done Last : Ledger → Prop} {run : Reached Fault Workbench}

namespace Upheld

/-- A run that reaches its end with the table in step upholds the books. -/
theorem done (hStart : start.Grows w) (hTable : AtTable (Sound Good w) n w l')
    (hAdvances : l.Advances l') (hDone : Done l') : Upheld start Ends Good n l Done (.done w) :=
  ⟨hStart, nofun, fun _ => ⟨l', hTable, hAdvances, fun _ => hDone⟩⟩

/-- A run that is stopped upholds the books if the table is in step at the faults of `Ends`. -/
theorem stopped {fault : Fault} (hStart : start.Grows w)
    (hAveraged : fault ≠ .misuse .nothingToAverage)
    (hTable : Ends fault → AtTable (Sound Good w) n w l') (hAdvances : l.Advances l') :
    Upheld start Ends Good n l Done (.stopped w fault) where
  grows := hStart
  averaged := fun hFault => hAveraged (Option.some.inj hFault)
  kept := fun hEnds => ⟨l', hTable (hEnds fault rfl), hAdvances, nofun⟩

theorem imp (h : Upheld start Ends Good n l Done run)
    (hImp : ∀ l', l.Advances l' → Done l' → Last l') : Upheld start Ends Good n l Last run where
  grows := h.grows
  averaged := h.averaged
  kept := by
    intro hEnds
    obtain ⟨l', hTable, hAdvances, hDone⟩ := h.kept hEnds
    exact ⟨l', hTable, hAdvances, fun hNone => hImp l' hAdvances (hDone hNone)⟩

/-- What is upheld from a later ledger is upheld from every ledger it is an advance of. -/
theorem of_advances (h : Upheld start Ends Good n l' Done run) (hAdvances : l.Advances l') :
    Upheld start Ends Good n l Done run where
  grows := h.grows
  averaged := h.averaged
  kept := by
    intro hEnds
    obtain ⟨l'', hTable, hMore, hDone⟩ := h.kept hEnds
    exact ⟨l'', hTable, hAdvances.trans hMore, hDone⟩

/-- What comes next goes on from the ledger that was reached. -/
theorem bind (h : Upheld start Ends Good n l Done run) {next : Workbench → Reached Fault Workbench}
    (hNext : ∀ w l', start.Grows w → AtTable (Sound Good w) n w l' → Done l' →
      Upheld start Ends Good n l' Last (next w)) :
    Upheld start Ends Good n l Last (run.bind next) := by
  cases hFault : run.fault with
  | none =>
      obtain ⟨l', hTable, hAdvances, hDone⟩ := h.kept (by simp [hFault])
      rw [Reached.bind_of_none hFault]
      exact (hNext _ l' h.grows hTable (hDone hFault)).of_advances hAdvances
  | some stop =>
      rw [Reached.bind_of_fault (by simp [hFault])]
      refine ⟨h.grows, h.averaged, fun hEnds => ?_⟩
      obtain ⟨l', hTable, hAdvances, -⟩ := h.kept hEnds
      refine ⟨l', hTable, hAdvances, fun hNone => ?_⟩
      rw [hFault] at hNone
      cases hNone

end Upheld

variable (hUp : c.Upholds start Ends Good) (hStart : start.Grows w)

include hUp hStart

/-- Saving upholds the books and leaves the ledger as it is. -/
theorem upheld_save (hTable : AtTable (Sound Good w) n w l) :
    Upheld start Ends Good n l (· = l) w.save := by
  obtain ⟨hSaved, hFault⟩ := hTable.save
  refine ⟨hStart.trans w.save_spec.1, ?_, fun _ => ⟨l, ?_, .refl l, fun _ => rfl⟩⟩
  · rcases hFault with hNone | hStop
    · simp [hNone]
    · simp [hStop]
  · exact hSaved.frame rfl rfl rfl (hUp.sound_mono w.save_spec.1)

section Folder

variable {k : Contestant} (hk : k ∈ c.contestants) {group : String × List PathName}
  (hGroup : group ∈ c.groups) {s : FolderStatistics} (hSound : Sound Good w k.label group.1 s)
  (hOpen : s.completed = false) (hTable : AtTable (Sound Good w) n w (l.put k.label group.1 s))

include hk hGroup hSound hOpen hTable

/-- The folder is completed without a row. -/
theorem upheld_complete {fault : Option Fault}
    (hAveraged : fault ≠ some (.misuse .nothingToAverage))
    (hStep : (∀ stop, fault = some stop → Ends stop) →
      (c.job k group.1 group.2).RecordStep Ends w s w { s with completed := true }) :
    Upheld start Ends Good n (l.put k.label group.1 s) (Ledger.Dealt k.label group)
      { value := w.recorded k.label group.1 { s with completed := true }, fault } where
  grows := hStart.trans (.recorded ..)
  averaged := hAveraged
  kept := by
    intro hEnds
    have hGood := hUp.step hStart k hk group hGroup hOpen (hStep hEnds) hSound.good
    refine ⟨_, hTable.put hUp rfl ⟨hSound.coherent.complete, hGood⟩, ?_, fun _ => ?_⟩
    · refine .put_put hOpen ?_ l _ _
      exact Nat.le_refl s.completedTests
    · exact ⟨_, l.record?_put_self _ _ _, .inl rfl⟩

/-- The folder is completed, and its row is added to the table. -/
theorem upheld_row {row : SummaryRow}
    (hLine : FolderStatistics.Short row.inconclusive ∧ FolderStatistics.Short row.failed)
    (hStep : (c.job k group.1 group.2).RecordStep Ends w s w
      { s with completed := true, rows := s.rows ++ [row] }) :
    ∃ files, w.append (tableAt n) row.line = .ok (w.store files) ∧
      Upheld start Ends Good n (l.put k.label group.1 s) (Ledger.Dealt k.label group)
        (.done ((w.store files).recorded k.label group.1
          { s with completed := true, rows := s.rows ++ [row] })) := by
  have hGood := hUp.step hStart k hk group hGroup hOpen hStep hSound.good
  obtain ⟨files, last, hAppend, rfl, hGrows, hLast⟩ :=
    hTable.summarize hUp ⟨hSound.coherent.summarize hLine, hGood⟩
  refine ⟨files, hAppend, .done (hStart.trans hGrows) hLast ?_ ?_⟩
  · refine .put_put hOpen ?_ l _ _
    exact Nat.le_refl s.completedTests
  · exact ⟨_, l.record?_put_self _ _ _, .inl rfl⟩

/-- A folder whose instances are all counted is completed, and its row is added if it has times. -/
theorem upheld_summarize (hAll : s.completedTests = group.2.length) :
    Upheld start Ends Good n (l.put k.label group.1 s) (Ledger.Dealt k.label group)
      (summarize w (tableAt n) k.label group.1 group.2.length
        (.recorded { s with completed := true })) := by
  cases hTimes : s.times.isEmpty with
  | true =>
      simp only [summarize, FolderRecord.hasTimes, hTimes, Bool.not_true]
      exact upheld_complete hUp hStart hk hGroup hSound hOpen hTable (by rintro ⟨⟩)
        fun _ => .timeless hAll (List.isEmpty_iff.1 hTimes)
  | false =>
      have hSome : s.times ≠ [] := by
        rintro hNone
        rw [hNone] at hTimes
        cases hTimes
      have hStop : ∀ fault, fault ≠ Misuse.nothingToAverage →
          Upheld start Ends Good n (l.put k.label group.1 s) (Ledger.Dealt k.label group)
            (.stopped (w.recorded k.label group.1 { s with completed := true })
              (.misuse fault)) := by
        intro fault hFault
        refine upheld_complete hUp hStart hk hGroup hSound hOpen hTable (fun hEq => ?_)
          fun hEnds => .unsummarized hAll hSome (hEnds _ rfl)
        exact hFault (Fault.misuse.inj (Option.some.inj hEq))
      simp only [summarize, FolderRecord.hasTimes, hTimes, Bool.not_false, FolderRecord.summarize]
      cases hSummary : ({ s with completed := true } : FolderStatistics).summaryRow k.label group.1
          group.2.length with
      | error fault =>
          have hLarge := FolderStatistics.summaryRow_eq_error
            (s := { s with completed := true }) hSome (hSound.coherent.memories_ne hSome) hSummary
          simp only [bind, Except.bind]
          refine hStop fault ?_
          rw [hLarge]
          rintro ⟨⟩
      | ok row =>
          simp only [bind, Except.bind, pure, Except.pure]
          by_cases hLine : FolderStatistics.Short row.inconclusive ∧
              FolderStatistics.Short row.failed
          · obtain ⟨hSolver, hFolder⟩ := FolderStatistics.summaryRow_names hSummary
            obtain ⟨files, hAppend, hRow⟩ := upheld_row hUp hStart hk hGroup hSound hOpen hTable
              hLine (.summarized hAll hSome hSolver hFolder)
            rw [SummaryRow.rowText_cells hLine.1 hLine.2]
            simp only [Except.mapError, hAppend]
            exact hRow
          · rw [SummaryRow.rowText_long hLine]
            exact hStop .tooManyDigits (by rintro ⟨⟩)

/-- A run on a folder, with the end of the folder. -/
theorem upheld_runFolder :
    Upheld start Ends Good n (l.put k.label group.1 s) (Ledger.Dealt k.label group)
      (c.runFolder (tableAt n) k group.1 group.2 (.recorded s) w) := by
  obtain ⟨os, last, w', fault, hTrace, hRun⟩ :=
    FolderJob.exists_trace hSound.coherent.counted (c.job k group.1 group.2) w
  have hWorking : Working Good n l k.label group.1 w s := ⟨hSound, hOpen, s, rfl, hTable⟩
  obtain ⟨hLast, hOpen', old, hRows, hBench⟩ := hWorking.trace hUp hk hGroup hTrace hStart
  have hSame := Workbench.Grows.recorded w' k.label group.1 last
  have hStart' := (hStart.trans hTrace.grows).trans hSame
  have hEnded := hBench.put hUp hRows hLast
  have hAdvances : (l.put k.label group.1 s).Advances (l.put k.label group.1 last) :=
    .put_put hOpen hTrace.le_completedTests l _ _
  rw [Campaign.runFolder, hRun, Campaign.endFolder]
  cases fault with
  | some stop =>
      refine .stopped hStart' ?_ (fun _ => hEnded) hAdvances
      rcases hTrace.stop_cases rfl with ⟨e, rfl, -⟩ | ⟨e, rfl⟩ | rfl <;> rintro ⟨⟩
  | none =>
      by_cases hAll : last.completedTests = group.2.length
      · have hSummary := upheld_summarize hUp hStart' hk hGroup
          (hUp.sound_mono hSame _ _ _ hLast) hOpen' hEnded hAll
        refine Upheld.of_advances ?_ hAdvances
        simp only [closeFolder_summarize hAll]
        refine hSummary.bind fun w l hGrown hNext hDealt => ?_
        exact (upheld_save hUp hGrown hNext).imp fun _ hMore _ => hDealt.mono hMore
      · simp only [closeFolder_open hAll]
        exact .done hStart' hEnded hAdvances
          ⟨last, l.record?_put_self _ _ _, .inr (hTrace.length_le rfl)⟩

end Folder

variable {k : Contestant} (hk : k ∈ c.contestants)

include hk

/-- A visit to one folder upholds the books, and deals with the folder where it ends. -/
theorem upheld_visitFolder {group : String × List PathName} (hGroup : group ∈ c.groups)
    (hTable : AtTable (Sound Good w) n w l) :
    Upheld start Ends Good n l (Ledger.Dealt k.label group)
      (c.visitFolder (tableAt n) k group.1 group.2 w) := by
  generalize hKnown : l.record? k.label group.1 = known
  have hFound : w.statistics.folder? k.label group.1 = .ok (known.map .recorded) := by
    rw [hTable.statistics, Ledger.folder?_statistics, hKnown]
  -- The record that is visited, and the bench with this record in the statistics.
  obtain ⟨s, hRecord, hSound, hRows, hAdvances⟩ : ∃ s : FolderStatistics,
      (known.map FolderRecord.recorded).getD .fresh = .recorded s ∧
      Sound Good w k.label group.1 s ∧ l.rowsAt k.label group.1 = s.rows ∧
      l.Advances (l.put k.label group.1 s) := by
    rw [Ledger.rowsAt, hKnown]
    cases known with
    | none =>
        refine ⟨.fresh, rfl, ⟨FolderStatistics.coherent_fresh, hUp.fresh hStart k hk group hGroup⟩,
          rfl, .put fun old hOld => ?_⟩
        rw [hKnown] at hOld
        cases hOld
    | some s =>
        refine ⟨s, rfl, hTable.records _ _ _ hKnown, rfl, .put fun old hOld => ?_⟩
        rw [hKnown] at hOld
        cases hOld
        exact ⟨Nat.le_refl _, fun _ => rfl⟩
  let visited := w.recorded k.label group.1 s
  have hSame : w.Grows visited := .recorded ..
  have hSound' := hUp.sound_mono hSame _ _ _ hSound
  have hVisited : AtTable (Sound Good visited) n visited (l.put k.label group.1 s) :=
    hTable.recorded hUp hRows hSound
  rw [Campaign.visitFolder, hFound]
  simp only [hRecord, FolderRecord.isCompleted]
  cases hCompleted : s.completed with
  | true =>
      have hPrinted := Workbench.Grows.printLine visited
        (">> Skipping completed: " ++ k.label ++ " - " ++ group.1)
      exact .done ((hStart.trans hSame).trans hPrinted)
        (hVisited.frame rfl rfl rfl (hUp.sound_mono hPrinted)) hAdvances
        ⟨s, l.record?_put_self _ _ _, .inl hCompleted⟩
  | false =>
      exact (upheld_runFolder hUp (hStart.trans hSame) hk hGroup hSound' hCompleted
        hVisited).of_advances hAdvances

/-- By induction on the folders, a contestant's round upholds the books and deals with them all. -/
theorem upheld_visitFolders {groups : List (String × List PathName)}
    (hGroups : ∀ group ∈ groups, group ∈ c.groups) (hTable : AtTable (Sound Good w) n w l) :
    Upheld start Ends Good n l (fun l' => ∀ group ∈ groups, l'.Dealt k.label group)
      (c.visitFolders (tableAt n) k w groups) := by
  induction groups generalizing w l with
  | nil => exact .done hStart hTable (.refl l) (List.forall_mem_nil _)
  | cons group groups ih =>
      rw [List.forall_mem_cons] at hGroups
      rw [Campaign.visitFolders]
      refine (upheld_visitFolder hUp hStart hk hGroups.1 hTable).bind
        fun w' l' hStart' hTable' hFirst => ?_
      exact (ih hStart' hGroups.2 hTable').imp fun _ hAdvances hRest =>
        List.forall_mem_cons.2 ⟨hFirst.mono hAdvances, hRest⟩

/-- A contestant's run upholds the books and deals with every folder of the tree. -/
theorem upheld_runContestant (hTable : AtTable (Sound Good w) n w l) :
    Upheld start Ends Good n l (fun l' => ∀ group ∈ c.groups, l'.Dealt k.label group)
      (c.runContestant (tableAt n) k w) := by
  let entered : Workbench :=
    { w.printLine ("\n=== " ++ upperCase k.label ++ " ===") with
      statistics := (l.withSolver k.label).statistics }
  have hSame : w.Grows entered := .of_files rfl rfl (List.suffix_refl _)
  have hEntered : AtTable (Sound Good entered) n entered (l.withSolver k.label) := by
    refine hTable.change rfl rfl rfl (hTable.distinct.withSolver k.label)
      ((hTable.records.withSolver k.label).imp (hUp.sound_mono hSame)) ?_ (hUp.sound_mono hSame)
    rw [Ledger.rows_withSolver]
  have hPlace : (w.printLine ("\n=== " ++ upperCase k.label ++ " ===")).statistics.withSolver
      k.label = .ok (l.withSolver k.label).statistics := by
    rw [Workbench.printLine, hTable.statistics, Ledger.withSolver_statistics]
  rw [Campaign.runContestant]
  simp only [hPlace]
  exact (upheld_visitFolders hUp (hStart.trans hSame) hk (fun _ => id) hEntered).of_advances
    (.withSolver l k.label)

omit hk in
/-- By induction on the contestants, the whole benchmark upholds the books and deals with every
folder for each of them. -/
theorem upheld_runContestants {contestants : List Contestant}
    (hMem : ∀ k ∈ contestants, k ∈ c.contestants) (hTable : AtTable (Sound Good w) n w l) :
    Upheld start Ends Good n l
      (fun l' => ∀ k ∈ contestants, ∀ group ∈ c.groups, l'.Dealt k.label group)
      (c.runContestants (tableAt n) w contestants) := by
  induction contestants generalizing w l with
  | nil => exact .done hStart hTable (.refl l) (List.forall_mem_nil _)
  | cons k contestants ih =>
      rw [List.forall_mem_cons] at hMem
      rw [Campaign.runContestants]
      refine (upheld_runContestant hUp hStart hMem.1 hTable).bind
        fun w' l' hStart' hTable' hFirst => ?_
      exact (ih hStart' hMem.2 hTable').imp fun _ hAdvances hRest =>
        List.forall_mem_cons.2 ⟨fun group hGroup => (hFirst group hGroup).mono hAdvances, hRest⟩

end Parts

/-! ### Whole runs -/

/-- A ledger of distinct keys and coherent records has rows that can be printed. -/
theorem Ledger.Distinct.printable {l : Ledger} (h : l.Distinct)
    (hRecords : l.All fun _ _ s => s.Coherent) : l.Printable := by
  intro row hRow
  obtain ⟨label, folder, s, hFound, hRow⟩ := h.exists_of_mem_rows hRow
  exact (hRecords label folder s hFound).printable row hRow

section Start

variable {R : String → String → FolderStatistics → Prop} {w : Workbench} {l : Ledger}
  (h : Kept R w l) (hFolder : w.files[resultFolder]? = some .directory)

include h hFolder

/-- The statistics of the backup are taken up, if there is one. -/
theorem Kept.load : ∃ w' l', w.load = .done w' ∧ Kept R w' l' ∧ w'.files = w.files ∧
    w'.history = w.history ∧ w'.attempts = w.attempts := by
  have hBackup := h.backups w.files List.mem_cons_self
  cases hEntry : w.files[backupPath]? with
  | none => exact ⟨w, l, load_none hFolder hEntry, h, rfl, rfl, rfl⟩
  | some entry =>
      rw [hEntry] at hBackup
      cases hBackup with
      | @ledger l' hGood hDistinct hWritable =>
          obtain ⟨line, hLoad⟩ := load_text hFolder hEntry hDistinct hWritable rfl
          exact ⟨_, l', hLoad, h.change rfl rfl rfl hDistinct hGood fun _ _ _ => id, rfl, rfl, rfl⟩
      | cut hText =>
          obtain ⟨line, line', hLoad⟩ := load_cut hFolder hEntry hText
          refine ⟨_, [], hLoad, ?_, rfl, rfl, rfl⟩
          exact h.change rfl rfl Ledger.statistics_nil.symm Ledger.distinct_nil
            (Ledger.all_nil R) fun _ _ _ => id

/-- The table starts with the rows that are known, unless it cannot be written. -/
theorem Kept.startTable (hPrintable : l.Printable) (n : Nat) :
    (∃ e, startTable w (tableAt n) = .stopped w (.access e)) ∨
      ∃ files, startTable w (tableAt n) = .done (w.store files) ∧
        AtTable R n (w.store files) l := by
  have hKnown : knownRows w.statistics = .done (String.join (l.rows.map SummaryRow.line)) := by
    rw [h.statistics, knownRows_eq hPrintable]
  rw [Benchmark.startTable, hKnown]
  simp only [Reached.done]
  rw [← tableText]
  cases hWrite : w.write (tableAt n) (tableText l.rows) with
  | error fault =>
      obtain ⟨e, rfl⟩ := Workbench.write_eq_error hWrite
      exact .inl ⟨e, rfl⟩
  | ok next =>
      obtain ⟨files, hFiles, rfl⟩ := Workbench.write_eq_ok hWrite
      have hShort : n < 10 ^ 239 := by
        by_contra hLarge
        obtain ⟨problem, hResolve⟩ :=
          resolve_tableAt_of_large (Nat.le_of_not_lt hLarge) w.files
        rw [FileTree.write, hResolve] at hFiles
        cases hFiles
      obtain rfl := FileTree.eq_insert_of_write isName_resultFolder (isName_tableName hShort)
        hFolder hFiles
      have hNew := FileTree.getElem?_insert_entry w.files (tableAt n)
      have hOther : tableAt n ≠ resultFolder := (resultFolder_ne_inFolder _).symm
      refine .inr ⟨_, rfl, h.store ?_, hShort, ?_, l.rows, .refl _, ?_⟩
      · rw [← tableAt, hNew, if_neg (tableAt_ne_backup n)]
        exact h.backups w.files List.mem_cons_self
      · exact (hNew ..).trans ((if_neg hOther).trans hFolder)
      · exact (hNew ..).trans (if_pos rfl)

end Start

namespace Campaign

variable {c : Campaign} {Ends : Fault → Prop} {Good : Rule} {w : Workbench} {l : Ledger}

/-- What a run from a bench leaves behind: the records, and the table unless the files did not let
the run work at one. A run to the end has dealt with all folders. -/
structure Leaves (c : Campaign) (Good : Rule) (w : Workbench) (run : Reached Fault Workbench)
    (l : Ledger) : Prop where
  kept : Kept (Sound Good run.value) run.value l
  table : (∃ e, run.fault = some (.access e)) ∨
    ∃ n, resultTable w.files = tableAt n ∧ AtTable (Sound Good run.value) n run.value l
  dealt : run.fault = none → ∀ k ∈ c.contestants, ∀ group ∈ c.groups, l.Dealt k.label group

/-- A run comes to its contestants at a table, unless the files do not let it. -/
theorem run_begins (c : Campaign) (hKept : Kept (Sound Good w) w l) :
    (∃ w' l' e, c.run w = .stopped w' (.access e) ∧ w.Grows w' ∧ Kept (Sound Good w) w' l') ∨
      ∃ n w' l', resultTable w.files = tableAt n ∧
        c.run w = c.runContestants (tableAt n) w' c.contestants ∧ w.Grows w' ∧
        AtTable (Sound Good w) n w' l' := by
  rw [run, Workbench.prepare, resultTable]
  cases hMade : w.files.makeDirectory resultFolder with
  | error e => exact .inl ⟨w, l, e, rfl, .refl w, hKept⟩
  | ok made =>
      obtain ⟨hFolder, hOther⟩ := FileTree.of_makeDirectory_eq_ok isName_resultFolder hMade
      have hBackup : made[backupPath]? = w.files[backupPath]? := hOther _ (by decide)
      have hStored : Kept (Sound Good w) (w.store made) l := hKept.store (by
        rw [hBackup]
        exact hKept.backups w.files List.mem_cons_self)
      obtain ⟨w₁, l₁, hLoad, hLoaded, hFiles, hHistory, hAttempts⟩ := hStored.load hFolder
      have hSame : (w.store made).Grows w₁ :=
        .of_files hFiles hHistory (hAttempts ▸ List.suffix_refl _)
      obtain ⟨n, -, hPath, -⟩ := exists_freePath_tablePath made
      have hPath₁ : w₁.files.freePath tablePath = tableAt n := by
        rw [hFiles]
        exact hPath
      let printed := w₁.printLine (">> Results will be written to: " ++ tableAt n)
      have hPrinted : Kept (Sound Good w) printed l₁ :=
        hLoaded.change rfl rfl hLoaded.statistics hLoaded.distinct hLoaded.records fun _ _ _ => id
      have hGrows : w.Grows printed :=
        ((Workbench.Grows.store w made).trans hSame).trans (.printLine ..)
      have hPrintable := hLoaded.distinct.printable
        (hLoaded.records.imp fun _ _ _ hs => hs.coherent)
      have hTable := hPrinted.startTable (hFiles ▸ hFolder) hPrintable n
      simp only [hLoad, Reached.done_bind, hPath₁]
      rcases hTable with ⟨e, hStop⟩ | ⟨files, hStart, hTable⟩
      · refine .inl ⟨printed, l₁, e, ?_, hGrows, hPrinted⟩
        rw [hStop]
        rfl
      · refine .inr ⟨n, _, l₁, hPath, ?_, hGrows.trans (.store printed files), hTable⟩
        rw [hStart, Reached.done_bind]

/-- A campaign keeps what it upholds. -/
theorem Upholds.run (hUp : c.Upholds w Ends Good) (hKept : Kept (Sound Good w) w l) :
    w.Grows (c.run w).value ∧ (c.run w).fault ≠ some (.misuse .nothingToAverage) ∧
      ((∀ stop, (c.run w).fault = some stop → Ends stop) → ∃ l', c.Leaves Good w (c.run w) l') := by
  rcases c.run_begins hKept with
    ⟨w', l', e, hRun, hGrows, hLast⟩ | ⟨n, w', l', hPath, hRun, hGrows, hTable⟩
  · rw [hRun]
    exact ⟨hGrows, nofun, fun _ => ⟨l', hLast.mono (hUp.sound_mono hGrows), .inl ⟨e, rfl⟩, nofun⟩⟩
  · have hUpheld := upheld_runContestants hUp hGrows (fun _ => id)
      (hTable.frame rfl rfl rfl (hUp.sound_mono hGrows))
    rw [hRun]
    refine ⟨hUpheld.grows, hUpheld.averaged, fun hEnds => ?_⟩
    obtain ⟨last, hLast, -, hDealt⟩ := hUpheld.kept hEnds
    exact ⟨last, hLast.toKept, .inr ⟨n, hPath, hLast⟩, hDealt⟩

end Campaign

/-- Calls of campaigns, the last one first, each with the bench it started from, and the bench after
them. Between the calls the statistics may be saved, also after a call that a fault has stopped: so
they are when a process ends by itself. It may also end at every moment without that. The next one
starts from the files. -/
inductive History (Call : Campaign → Prop) (Ends : Fault → Prop) :
    List (Campaign × Workbench) → Workbench → Prop where
  | start {files : FileTree} {depth : Depth} (hBackup : files[backupPath]? = none) :
      History Call Ends [] (.ofFiles files depth)
  | call {calls : List (Campaign × Workbench)} {w : Workbench} {c : Campaign}
      (h : History Call Ends calls w) (hCall : Call c)
      (hEnds : ∀ stop, (c.run w).fault = some stop → Ends stop) :
      History Call Ends ((c, w) :: calls) (c.run w).value
  | saved {calls : List (Campaign × Workbench)} {w : Workbench} (h : History Call Ends calls w) :
      History Call Ends calls w.save.value
  | restart {calls : List (Campaign × Workbench)} {w : Workbench} {t : FileTree} {depth : Depth}
      (h : History Call Ends calls w) (hFiles : t ∈ w.snapshots) :
      History Call Ends calls (.ofFiles t depth)

/-- A campaign is called, and another process starts from the files that are left. -/
theorem history_twice (Call : Campaign → Prop) (hCall : Call .twice) (Ends : Fault → Prop) :
    History Call Ends [(.twice, .ofFiles Campaign.twiceFiles)]
      (.ofFiles (Campaign.twice.run (.ofFiles Campaign.twiceFiles)).value.files) := by
  have hStart : History Call Ends [] (.ofFiles Campaign.twiceFiles) := by
    refine .start ?_
    rw [backupPath_eq]
    exact Campaign.repeatable_twice.noResults.empty _
  refine .restart (.call hStart hCall fun stop hStop => ?_) List.mem_cons_self
  rw [Campaign.fault_twice .never (Nat.pow_pos (by decide))] at hStop
  cases hStop

/-- A run that starts on the files of an earlier one keeps the books from the first moment on. -/
theorem kept_ofFiles {R : String → String → FolderStatistics → Prop} {t : FileTree}
    (h : BackupLeft (·.All R) t[backupPath]?) (depth : Depth) : Kept R (.ofFiles t depth) [] :=
  ⟨Ledger.statistics_nil.symm, Ledger.distinct_nil, Ledger.all_nil R,
    List.forall_mem_singleton.2 h⟩

/-- What every call keeps is true of all records, whatever the calls and restarts. -/
theorem History.kept {Call : Campaign → Prop} {Ends : Fault → Prop}
    {calls : List (Campaign × Workbench)} {w : Workbench}
    {R : List (Campaign × Workbench) → String → String → FolderStatistics → Prop}
    (h : History Call Ends calls w)
    (hCall : ∀ {calls w c l}, Kept (R calls) w l → Call c →
      (∀ stop, (c.run w).fault = some stop → Ends stop) →
      ∃ l', Kept (R ((c, w) :: calls)) (c.run w).value l') : ∃ l, Kept (R calls) w l := by
  induction h with
  | start hBackup => exact ⟨[], kept_ofFiles (by rw [hBackup]; exact .none) _⟩
  | call h hNext hEnds ih =>
      obtain ⟨l, hKept⟩ := ih
      exact hCall hKept hNext hEnds
  | saved h ih =>
      obtain ⟨l, hKept⟩ := ih
      exact ⟨l, hKept.saved⟩
  | restart h hFiles ih =>
      obtain ⟨l, hKept⟩ := ih
      exact ⟨[], kept_ofFiles (hKept.backups _ hFiles) _⟩

end Benchmark

end SatLab
