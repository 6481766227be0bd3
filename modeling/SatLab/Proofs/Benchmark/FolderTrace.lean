import SatLab.Proofs.Benchmark.FolderRun
import SatLab.Proofs.Benchmark.Tally

/-! A run on a folder as a trace of its attempts. Unlike the course of a folder, a trace tells of
every run, whatever the files hold: also of one that an instance stops which cannot be read. -/

namespace SatLab

namespace Benchmark

/-- Nothing is forgotten of the attempts and of the file trees. -/
structure Workbench.Grows (w w' : Workbench) : Prop where
  attempts : w.attempts <:+ w'.attempts
  snapshots : w.snapshots <:+ w'.snapshots

namespace Workbench

variable {w w' w'' : Workbench}

namespace Grows

theorem refl (w : Workbench) : w.Grows w := ⟨List.suffix_refl _, List.suffix_refl _⟩

theorem trans (h : w.Grows w') (h' : w'.Grows w'') : w.Grows w'' :=
  ⟨h.attempts.trans h'.attempts, h.snapshots.trans h'.snapshots⟩

/-- The files stay, and so do the attempts that were made. -/
theorem of_files (hFiles : w'.files = w.files) (hHistory : w'.history = w.history)
    (hAttempts : w.attempts <:+ w'.attempts) : w.Grows w' := by
  have hSnapshots : w'.snapshots = w.snapshots := by
    rw [Workbench.snapshots, Workbench.snapshots, hFiles, hHistory]
  exact ⟨hAttempts, hSnapshots ▸ List.suffix_refl _⟩

/-- Changing the files adds neither an attempt nor a line. -/
theorem store (w : Workbench) (files : FileTree) : w.Grows (w.store files) :=
  ⟨List.suffix_refl _, List.suffix_cons _ _⟩

/-- Printing a line only makes what has been printed longer. -/
theorem printLine (w : Workbench) (line : String) : w.Grows (w.printLine line) :=
  .of_files rfl rfl (List.suffix_refl _)

end Grows

/-- A write that succeeds changes the files and nothing else of the workbench. -/
theorem write_eq_ok {path text : String} (h : w.write path text = .ok w') :
    ∃ files, w.files.write path (Utf8.encode text) = .ok files ∧ w' = w.store files := by
  rw [write] at h
  split at h
  · next files hWrite =>
      cases h
      exact ⟨files, hWrite, rfl⟩
  · cases h

/-- A write fails only by a fault of the file system. -/
theorem write_eq_error {path text : String} {fault : Fault} (h : w.write path text = .error fault) :
    ∃ e, fault = .access e := by
  rw [write] at h
  split at h
  · cases h
  · cases h
    exact ⟨_, rfl⟩

/-- Saving adds a file tree, or nothing. Only the files or a number that is too long stop it. -/
theorem save_spec (w : Workbench) : w.Grows w.save.value ∧
    w.save.value.statistics = w.statistics ∧ w.save.value.attempts = w.attempts ∧
    ∀ fault, w.save.fault = some fault →
      (∃ e, fault = .access e) ∨ fault = .misuse .tooManyDigits := by
  rw [save]
  split
  · simp only
    split
    · next fault hWrite =>
        refine ⟨.refl w, rfl, rfl, fun stop hStop => ?_⟩
        cases hStop
        exact .inl (write_eq_error hWrite)
    · next hWrite =>
        obtain ⟨files, -, rfl⟩ := write_eq_ok hWrite
        split
        · refine ⟨.store w files, rfl, rfl, fun stop hStop => ?_⟩
          cases hStop
          exact .inr rfl
        · refine ⟨.store w files, rfl, rfl, fun stop hStop => ?_⟩
          cases hStop
  · refine ⟨.refl w, rfl, rfl, fun stop hStop => ?_⟩
    cases hStop

/-- Saving writes nothing but the backup, and only if there is a directory for it. -/
theorem save_cases (w : Workbench) : w.save.value = w ∨
    w.files[resultFolder]? = some .directory ∧
      ∃ content, w.save.value = w.store (w.files.insert backupPath (.file content)) := by
  rw [save]
  split
  · next hFolder =>
      have hThere := FileTree.eq_directory_of_isDirectory isName_resultFolder hFolder
      simp only
      split
      · exact .inl rfl
      · next hWrite =>
          obtain ⟨files, hFiles, rfl⟩ := write_eq_ok hWrite
          rw [backupPath_eq] at hFiles
          obtain rfl := FileTree.eq_insert_of_write isName_resultFolder isName_backup hThere hFiles
          rw [← backupPath_eq]
          split <;> exact .inr ⟨hThere, _, rfl⟩
  · exact .inl rfl

end Workbench

namespace FolderJob

variable {job : FolderJob} {s last : FolderStatistics} {w w' : Workbench} {os : List Outcome}
  {fault : Option Fault}

/-- The next instance is tried, with this outcome. -/
structure Tries (job : FolderJob) (s : FolderStatistics) (w : Workbench) (o : Outcome) : Prop where
  live : s.consecutiveTimeouts < FolderStatistics.timeoutLimit
  read : ∃ path f, job.instances[s.completedTests]? = some path ∧
    Dimacs.ofFile w.files path.text = .ok f ∧ o = job.nextOutcome s w f

/-- An instance is tried only while some instance of the folder is not completed. -/
theorem Tries.lt {o : Outcome} (h : job.Tries s w o) : s.completedTests < job.instances.length := by
  obtain ⟨path, f, hPath, -⟩ := h.read
  exact (List.getElem?_eq_some_iff.1 hPath).1

/-- The next instance cannot be read. -/
structure Unreadable (job : FolderJob) (s : FolderStatistics) (w : Workbench) (e : FormulaFault) :
    Prop where
  live : s.consecutiveTimeouts < FolderStatistics.timeoutLimit
  read : ∃ path, job.instances[s.completedTests]? = some path ∧
    Dimacs.ofFile w.files path.text = .error e

/-- The bench that is saved after an attempt: a line was printed for it, and its outcome is in the
statistics. -/
def toSave (job : FolderJob) (s : FolderStatistics) (w : Workbench) (o : Outcome) (line : String) :
    Workbench :=
  { (job.attempted s w).printLine line with
    statistics := job.publish w.statistics (.recorded (s.deal o)) }

/-- Saving after an attempt stores exactly the record of the attempt, dealt with its outcome, under
the folder's key. -/
theorem save_recorded (o : Outcome) (line : String) :
    job.save
      { record := .recorded (s.deal o), bench := (job.attempted s w).printLine line } =
    { value := { record := .recorded (s.deal o), bench := (job.toSave s w o line).save.value },
      fault := (job.toSave s w o line).save.fault } := rfl

/-- How a run goes on from a record: the outcomes that come in, the record and the bench at the
end, and what stops it. -/
inductive FolderTrace (job : FolderJob) :
    FolderStatistics → Workbench → List Outcome → FolderStatistics → Workbench → Option Fault →
      Prop where
  | finished {s : FolderStatistics} {w : Workbench}
      (hAll : job.instances.length ≤ s.completedTests) : FolderTrace job s w [] s w none
  | gaveUp {s : FolderStatistics} {w : Workbench} (line : String)
      (hMore : s.completedTests < job.instances.length)
      (hMany : FolderStatistics.timeoutLimit ≤ s.consecutiveTimeouts) :
      FolderTrace job s w [] (s.giveUp (job.instances.length - s.completedTests))
        (w.printLine line) none
  | unreadable {s : FolderStatistics} {w : Workbench} {e : FormulaFault}
      (h : job.Unreadable s w e) : FolderTrace job s w [] s w (some (.formula e))
  | unprinted {s : FolderStatistics} {w : Workbench} {o : Outcome} (h : job.Tries s w o)
      (hLong : o.tooLong = true) :
      FolderTrace job s w [o] (s.deal o) (job.attempted s w) (some (.misuse .tooManyDigits))
  | unsaved {s : FolderStatistics} {w : Workbench} {o : Outcome} {line : String} {stop : Fault}
      (h : job.Tries s w o) (hStop : (job.toSave s w o line).save.fault = some stop) :
      FolderTrace job s w [o] (s.deal o) (job.toSave s w o line).save.value (some stop)
  | tried {s last : FolderStatistics} {w w' : Workbench} {o : Outcome} {line : String}
      {os : List Outcome} {fault : Option Fault} (h : job.Tries s w o)
      (hSaved : (job.toSave s w o line).save.fault = none)
      (hRest : FolderTrace job (s.deal o) (job.toSave s w o line).save.value os last w' fault) :
      FolderTrace job s w (o :: os) last w' fault

/-- Going through the instances that a record does not count is a trace. -/
theorem exists_trace_goThrough {rest : List PathName} {i : Nat} (hCompleted : s.completedTests = i)
    (hRest : job.instances.drop i = rest) :
    ∃ os last w' fault, FolderTrace job s w os last w' fault ∧
      job.goThrough { record := .recorded s, bench := w }
        ((rest.zipIdx i).map fun member => ((member.2 : Int), member.2, member.1)) =
          { value := { record := .recorded last, bench := w' }, fault } := by
  induction rest generalizing s w i with
  | nil =>
      subst hCompleted
      exact ⟨[], s, w, none, .finished (List.drop_eq_nil_iff.1 hRest), rfl⟩
  | cons path rest ih =>
      subst hCompleted
      have hPath : job.instances[s.completedTests]? = some path := by
        rw [← List.head?_drop, hRest, List.head?_cons]
      have hTail : job.instances.drop (s.completedTests + 1) = rest := by
        rw [← List.tail_drop, hRest, List.tail_cons]
      have hMore := (List.getElem?_eq_some_iff.1 hPath).1
      have hRecord : ({ record := .recorded s, bench := w } : FolderState).record = .recorded s :=
        rfl
      rw [List.zipIdx_cons, List.map_cons]
      by_cases hLive : s.consecutiveTimeouts < FolderStatistics.timeoutLimit
      · rw [goThrough_live hRecord hLive]
        cases hRead : Dimacs.ofFile w.files path.text with
        | error e =>
            refine ⟨[], s, w, _, .unreadable ⟨hLive, path, hPath, hRead⟩, ?_⟩
            simp only [tryInstance, hRead]
            rfl
        | ok f =>
            obtain ⟨line, hTried⟩ := tryInstance_recorded hRecord job hRead
            generalize hOutcome : job.nextOutcome s w f = o at hTried
            have hTries : job.Tries s w o := ⟨hLive, path, f, hPath, hRead, hOutcome.symm⟩
            rw [hTried]
            cases hLong : o.tooLong with
            | true =>
                rw [if_pos rfl]
                exact ⟨_, _, _, _, .unprinted hTries hLong, rfl⟩
            | false =>
                rw [if_neg Bool.false_ne_true, save_recorded]
                cases hSaved : (job.toSave s w o line).save.fault with
                | some stop => exact ⟨_, _, _, _, .unsaved hTries hSaved, rfl⟩
                | none =>
                    obtain ⟨os, last, w', fault, hTrace, hRun⟩ :=
                      ih (w := (job.toSave s w o line).save.value)
                        (FolderStatistics.deal_completedTests s o) hTail
                    exact ⟨_, _, _, _, .tried hTries hSaved hTrace, hRun⟩
      · have hMany := Nat.le_of_not_lt hLive
        obtain ⟨line, hSkip⟩ := skipFrom_recorded hRecord job (Nat.le_of_lt hMore)
        refine ⟨_, _, _, _, .gaveUp line hMore hMany, ?_⟩
        rw [goThrough_timedOut hRecord hMany, hSkip]
        rfl

/-- A run from a record that counts every outcome is a trace. -/
theorem exists_trace (hCounted : s.outcomes = s.completedTests) (job : FolderJob) (w : Workbench) :
    ∃ os last w' fault, FolderTrace job s w os last w' fault ∧
      job.run { record := .recorded s, bench := w } =
        { value := { record := .recorded last, bench := w' }, fault } := by
  rw [run_recorded rfl hCounted]
  exact exists_trace_goThrough rfl rfl

/-- From the attempt to its save, attempts and lines only grow. -/
theorem grows_toSave (job : FolderJob) (s : FolderStatistics) (w : Workbench) (o : Outcome)
    (line : String) : w.Grows (job.toSave s w o line) :=
  .of_files rfl rfl (List.suffix_cons (job.nextAttempt s w) w.attempts)

namespace FolderTrace

variable (h : FolderTrace job s w os last w' fault)

include h

/-- Whatever a trace does, attempts and lines only grow. -/
theorem grows : w.Grows w' := by
  induction h with
  | finished => exact .refl _
  | gaveUp => exact .printLine ..
  | unreadable => exact .refl _
  | unprinted => exact .of_files rfl rfl (List.suffix_cons _ _)
  | unsaved => exact (grows_toSave ..).trans (Workbench.save_spec _).1
  | tried _ _ _ ih => exact ((grows_toSave ..).trans (Workbench.save_spec _).1).trans ih

/-- The outcomes are added to those that are counted already. More instances are given up only at
the end of a run, after too many timeouts. -/
theorem tally {before : List Outcome} {skipped : Nat} (hTally : s.Tally before skipped) :
    ∃ more, last.Tally (before ++ os) more ∧
      (more = skipped ∨ fault = none ∧ FolderStatistics.timeoutLimit ≤ last.consecutiveTimeouts ∧
        last.completedTests = job.instances.length) := by
  induction h generalizing before with
  | finished | unreadable =>
      rw [List.append_nil]
      exact ⟨skipped, hTally, .inl rfl⟩
  | @gaveUp s _ _ hMore hMany =>
      rw [List.append_nil]
      refine ⟨_, hTally.giveUp _, .inr ⟨rfl, hMany, ?_⟩⟩
      exact Nat.add_sub_cancel' (Nat.le_of_lt hMore)
  | @unprinted _ _ o | @unsaved _ _ o => exact ⟨skipped, hTally.deal o, .inl rfl⟩
  | @tried _ _ _ _ o _ _ _ _ _ _ ih =>
      rw [List.append_cons]
      exact ih (hTally.deal o)

/-- A run that nothing stops deals with all instances. -/
theorem length_le (hFault : fault = none) : job.instances.length ≤ last.completedTests := by
  induction h with
  | finished hAll => exact hAll
  | @gaveUp s _ _ hMore => exact Nat.le_of_eq (Nat.add_sub_cancel' (Nat.le_of_lt hMore)).symm
  | unreadable | unprinted | unsaved => cases hFault
  | tried _ _ _ ih => exact ih hFault

/-- No instance is taken back. -/
theorem le_completedTests : s.completedTests ≤ last.completedTests := by
  induction h with
  | finished | unreadable => exact Nat.le_refl _
  | gaveUp => exact Nat.le_add_right _ _
  | unprinted | unsaved => exact Nat.le_succ _
  | tried _ _ _ ih => exact Nat.le_trans (Nat.le_succ _) ih

/-- Along a trace the completed tests never pass the number of instances. -/
theorem completedTests_le (hLe : s.completedTests ≤ job.instances.length) :
    last.completedTests ≤ job.instances.length := by
  induction h with
  | finished | unreadable => exact hLe
  | gaveUp => exact Nat.le_of_eq (Nat.add_sub_cancel' hLe)
  | unprinted h | unsaved h => exact h.lt
  | tried h _ _ ih => exact ih h.lt

/-- What can stop a run: an instance that cannot be read, the files, or a number that is too
long. -/
theorem stop_cases {stop : Fault} (hFault : fault = some stop) :
    (∃ e, stop = .formula e ∧ job.Unreadable last w' e) ∨ (∃ e, stop = .access e) ∨
      stop = .misuse .tooManyDigits := by
  induction h with
  | finished | gaveUp => cases hFault
  | unreadable h =>
      cases hFault
      exact .inl ⟨_, rfl, h⟩
  | unprinted =>
      cases hFault
      exact .inr (.inr rfl)
  | unsaved _ hStop =>
      cases hFault
      exact .inr ((Workbench.save_spec _).2.2.2 _ hStop)
  | tried _ _ _ ih => exact ih hFault

/-- Every instance that has an outcome could be read. -/
theorem exists_read {i : Nat} (hi : i < os.length) : ∃ t ∈ w'.snapshots, ∃ path f,
    job.instances[s.completedTests + i]? = some path ∧ Dimacs.ofFile t path.text = .ok f := by
  have hGrows := h.grows
  induction h generalizing i with
  | finished | gaveUp | unreadable => cases hi
  | unprinted h | unsaved h =>
      obtain rfl := Nat.lt_one_iff.1 hi
      obtain ⟨path, f, hPath, hRead, -⟩ := h.read
      exact ⟨_, hGrows.snapshots.subset List.mem_cons_self, path, f, hPath, hRead⟩
  | tried h _ hRest ih =>
      cases i with
      | zero =>
          obtain ⟨path, f, hPath, hRead, -⟩ := h.read
          exact ⟨_, hGrows.snapshots.subset List.mem_cons_self, path, f, hPath, hRead⟩
      | succ i =>
          have hPlace := ih (Nat.lt_of_succ_lt_succ hi) hRest.grows
          rwa [FolderStatistics.deal_completedTests, Nat.add_right_comm] at hPlace

end FolderTrace

/-- A run from a fresh record counts the instances that could be read, in order, and those it gives
up after too many timeouts. An instance that cannot be read is not counted among the failures: it
stops the run, and what comes after it is not tried. An instance outside the tree is missing, and so
it cannot be read. -/
theorem run_unreadable_stops (job : FolderJob) (w : Workbench) :
    let run := job.run { record := .fresh, bench := w }
    ∃ s os skipped, run.value.record = .recorded s ∧ s.Tally os skipped ∧
      (∀ i < os.length, ∃ t ∈ run.value.bench.snapshots, ∃ path f,
        job.instances[i]? = some path ∧ Dimacs.ofFile t path.text = .ok f) ∧
      (run.fault = none → os.length + skipped = job.instances.length) ∧
      ∀ stop, run.fault = some stop → skipped = 0 ∧
        ((∃ e path, stop = .formula e ∧ job.instances[os.length]? = some path ∧
          Dimacs.ofFile run.value.bench.files path.text = .error e) ∨
        (∃ e, stop = .access e) ∨ stop = .misuse .tooManyDigits) := by
  intro run
  obtain ⟨os, last, w', fault, hTrace, hRun⟩ :=
    exists_trace FolderStatistics.tally_fresh.outcomes_eq job w
  obtain ⟨skipped, hTally, hSkipped⟩ := hTrace.tally FolderStatistics.tally_fresh
  rw [List.nil_append] at hTally
  have hValue : run = { value := { record := .recorded last, bench := w' }, fault } := hRun
  rw [hValue]
  refine ⟨last, os, skipped, rfl, hTally, fun i hi => ?_, fun hFault => ?_, fun stop hStop => ?_⟩
  · have hRead := hTrace.exists_read hi
    rwa [show FolderStatistics.fresh.completedTests + i = i from Nat.zero_add i] at hRead
  · have hLe := hTrace.completedTests_le (Nat.zero_le _)
    have hGe := hTrace.length_le hFault
    rw [hTally.completedTests] at hLe hGe
    exact Nat.le_antisymm hLe hGe
  · have hNone : skipped = 0 := by
      rcases hSkipped with hSame | ⟨hEnd, -⟩
      · exact hSame
      · rw [hEnd] at hStop
        cases hStop
    refine ⟨hNone, (hTrace.stop_cases hStop).imp_left ?_⟩
    rintro ⟨e, rfl, hUnreadable⟩
    obtain ⟨path, hPath, hRead⟩ := hUnreadable.read
    rw [hTally.completedTests, hNone, Nat.add_zero] at hPath
    exact ⟨e, path, rfl, hPath, hRead⟩

/-- An instance that is missing stops the run. -/
theorem run_missing_stops : ¬∀ (job : FolderJob) (w : Workbench),
    (job.run { record := .fresh, bench := w }).fault = none := by
  intro hAll
  let job : FolderJob :=
    { contestant := { label := "a", solver := .answering none 0 }, folder := "x",
      instances := [.ofString "0.cnf"], trial := fun _ => .plain,
      publish := fun statistics _ => statistics }
  have hText : (PathName.ofString "0.cnf").text = "0.cnf" := by decide
  have hName : FileTree.IsName "0.cnf" := by constructor <;> decide
  have hMissing : Dimacs.ofFile ∅ (PathName.ofString "0.cnf").text =
      .error (.access { problem := .missing, path := "0.cnf" }) := by
    rw [hText, Dimacs.ofFile, FileTree.read,
      FileTree.resolve_name_none hName Std.ExtTreeMap.getElem?_empty]
    rfl
  obtain ⟨os, last, w', fault, hTrace, hRun⟩ :=
    exists_trace FolderStatistics.tally_fresh.outcomes_eq job (.ofFiles ∅)
  have hNone : fault = none := (congrArg Reached.fault hRun).symm.trans (hAll job (.ofFiles ∅))
  cases hTrace with
  | finished hDone => exact absurd hDone (by decide)
  | gaveUp line hMore hMany => exact absurd hMany (by decide)
  | unreadable h => cases hNone
  | unprinted h | unsaved h | tried h =>
      obtain ⟨path, f, hPath, hRead, -⟩ := h.read
      cases hPath
      have hFiles : (Workbench.ofFiles ∅).files = ∅ := rfl
      rw [hFiles, hMissing] at hRead
      cases hRead

end FolderJob

end Benchmark

end SatLab
