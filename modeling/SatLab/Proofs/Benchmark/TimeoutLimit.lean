import Mathlib.Data.List.TakeWhile
import SatLab.Proofs.Benchmark.Accounts

/-! Where a run gives a folder up. The timeouts in a row are looked at before an instance and
counted after it, and they are carried over from earlier runs. So the run tries exactly the
instances before the first one that comes after too many timeouts. -/

namespace SatLab

namespace Outcome

/-- The timeouts in a row after some outcomes. They reach back to the ones that are carried over if
all outcomes are timeouts. -/
def streakAfter (carried : Nat) (os : List Outcome) : Nat :=
  if os.all isLate then carried + os.length else streak os

/-- How many instances of a folder are tried: those before the first one that comes after too many
timeouts in a row, or all. -/
def cutOff (carried : Nat) (os : List Outcome) : Nat :=
  (List.range os.length).findIdx fun tried =>
    FolderStatistics.timeoutLimit ≤ streakAfter carried (os.take tried)

variable {carried : Nat} {o : Outcome} {os : List Outcome}

/-- A streak that runs through the whole list is carried on to the outcome before it. -/
theorem streak_cons_of_all (h : os.all isLate = true) :
    streak (o :: os) = os.length + countOn 0 o := by
  have hAll : ∀ x ∈ os.reverse, isLate x = true := fun x hx =>
    List.all_eq_true.1 h x (List.mem_reverse.1 hx)
  rw [streak, List.reverse_cons, List.takeWhile_append_of_pos hAll, List.length_append,
    List.length_reverse, List.takeWhile_cons, countOn]
  cases o.isLate <;> rfl

/-- A streak that ends inside the list does not see the outcome before it. -/
theorem streak_cons_of_not_all (h : os.all isLate = false) : streak (o :: os) = streak os := by
  have hShort : ¬(os.reverse.takeWhile isLate).length = os.reverse.length := by
    intro hLength
    have hSame := (List.takeWhile_prefix isLate).eq_of_length hLength
    rw [← List.all_reverse, ← Bool.not_eq_true, List.all_eq_true] at h
    exact h (List.takeWhile_eq_self_iff.1 hSame)
  rw [streak, List.reverse_cons, List.takeWhile_append, if_neg hShort, streak]

theorem streakAfter_nil : streakAfter carried [] = carried := rfl

/-- The timeouts in a row are counted one outcome at a time. -/
theorem streakAfter_cons : streakAfter carried (o :: os) = streakAfter (countOn carried o) os := by
  rw [streakAfter, streakAfter, List.all_cons, List.length_cons]
  cases hAll : os.all isLate with
  | false => rw [Bool.and_false, if_neg Bool.false_ne_true, if_neg Bool.false_ne_true,
      streak_cons_of_not_all hAll]
  | true =>
      rw [Bool.and_true, streak_cons_of_all hAll, if_pos rfl, countOn, countOn]
      cases o.isLate with
      | false => exact Nat.add_comm _ _
      | true =>
          simp only [if_true]
          omega

/-- A streak already at the limit is cut off before the first attempt. -/
theorem cutOff_of_many (h : FolderStatistics.timeoutLimit ≤ carried) : cutOff carried os = 0 := by
  cases os with
  | nil => rfl
  | cons o os =>
      rw [cutOff, List.length_cons, List.range_succ_eq_map, List.findIdx_cons, List.take_zero,
        streakAfter_nil, decide_eq_true h, cond_true]

/-- Below the limit one outcome is attempted, and the cut-off is found from the streak it leaves. -/
theorem cutOff_cons_of_live (h : carried < FolderStatistics.timeoutLimit) :
    cutOff carried (o :: os) = cutOff (countOn carried o) os + 1 := by
  rw [cutOff, List.length_cons, List.range_succ_eq_map, List.findIdx_cons, List.take_zero,
    streakAfter_nil, decide_eq_false (Nat.not_le.2 h), cond_false, List.findIdx_map, cutOff]
  simp only [Function.comp_def, Nat.succ_eq_add_one, List.take_succ_cons, streakAfter_cons]

/-- After a failure nine timeouts that are carried over do not count. -/
example : cutOff 9 (.error (.failed "") :: List.replicate 11 (.error (.timeout (.whole 0)))) = 11 :=
  rfl

end Outcome

namespace FolderStatistics

/-- Each outcome is counted once, and there are no more of them than instances. -/
structure Counts (s : FolderStatistics) (total : Nat) : Prop where
  outcomes : s.outcomes = s.completedTests
  bound : s.completedTests ≤ total

/-- A record goes on from another one: these outcomes came in, and then some instances were given
up. -/
structure Continues (last s : FolderStatistics) (os : List Outcome) (skipped : Nat) : Prop where
  times : last.times = s.times ++ (Outcome.measured os).map Measurement.elapsed
  inconclusive : last.inconclusive = s.inconclusive + os.countP Outcome.isLate + skipped
  failed : last.failed = s.failed + os.countP Outcome.isFailure
  completedTests : last.completedTests = s.completedTests + os.length + skipped
  timeouts : last.consecutiveTimeouts = Outcome.streakAfter s.consecutiveTimeouts os

namespace Continues

variable {s last : FolderStatistics} {o : Outcome} {os : List Outcome} {skipped : Nat}

theorem refl (s : FolderStatistics) : s.Continues s [] 0 :=
  ⟨(List.append_nil _).symm, rfl, rfl, rfl, rfl⟩

/-- Giving up the rest of a folder continues a record with no outcome and that many skipped
instances. -/
theorem giveUp (s : FolderStatistics) (left : Nat) : (s.giveUp left).Continues s [] left :=
  ⟨(List.append_nil _).symm, rfl, rfl, rfl, rfl⟩

/-- One more outcome came in first. -/
theorem cons (h : last.Continues (s.deal o) os skipped) : last.Continues s (o :: os) skipped where
  times := by
    rw [h.times, Outcome.measured_cons, List.map_append, ← List.append_assoc]
    rcases o with (seconds | reason) | m
    · exact congrArg (· ++ _) (List.append_nil _).symm
    · exact congrArg (· ++ _) (List.append_nil _).symm
    · rfl
  inconclusive := by
    rw [h.inconclusive, List.countP_cons, deal_inconclusive]
    omega
  failed := by
    rw [h.failed, List.countP_cons, deal_failed]
    omega
  completedTests := by
    rw [h.completedTests, deal_completedTests, List.length_cons]
    omega
  timeouts := by
    rw [h.timeouts, Outcome.streakAfter_cons, deal_timeouts]

/-- Dealing with one outcome continues a record with that outcome. -/
theorem single (s : FolderStatistics) (o : Outcome) : (s.deal o).Continues s [o] 0 :=
  (refl (s.deal o)).cons

/-- Where outcomes and completed tests agree at the start, they agree ever after. -/
theorem outcomes_eq (h : last.Continues s os skipped) (hCounted : s.outcomes = s.completedTests) :
    last.outcomes = last.completedTests := by
  have hLength := Outcome.length_eq os
  rw [outcomes] at hCounted
  rw [outcomes, h.times, h.inconclusive, h.failed, h.completedTests, List.length_append,
    List.length_map]
  omega

end Continues

end FolderStatistics

namespace Benchmark

namespace Workbench

/-- The files besides the backup. -/
def otherFiles (w : Workbench) : FileTree := w.files.erase backupPath

/-- Saving touches only files of results. -/
theorem otherFiles_save (w : Workbench) : w.save.value.otherFiles = w.otherFiles := by
  rcases w.save_cases with hSame | ⟨-, content, hStored⟩
  · rw [hSame]
  · rw [hStored]
    exact FileTree.erase_insert_entry ..

/-- Nothing stops a backup that has a place and no number that is too long. -/
theorem save_fault_eq_none {w : Workbench} (hPlace : w.files[backupPath]? ≠ some .directory)
    (hShort : w.statistics.toDocument.hasTooManyDigits = false) : w.save.fault = none := by
  rw [save]
  split
  · next hFolder =>
      have hThere := FileTree.eq_directory_of_isDirectory isName_resultFolder hFolder
      have hPart := (Document.writtenPart?_eq_none .indented 0 _).2 hShort
      simp only [hPart, Option.map_none, Option.getD_none, write_backup hThere hPlace,
        Option.isSome_none]
      rfl
  · rfl

end Workbench

/-- The records that campaigns account for are such that runs can go on from them. -/
theorem Accounts.counts {Made : Origin} {label folder : String} {members : List PathName}
    {s : FolderStatistics} {os : List Outcome} {skipped : Nat}
    (h : Accounts Made label folder members s os skipped) : s.Counts members.length :=
  ⟨h.tally.outcomes_eq, h.tally.completedTests ▸ h.bound⟩

namespace FolderJob

variable (job : FolderJob) (s : FolderStatistics) (w : Workbench)

/-- The attempts at the instances that a record does not count, each with its instance. -/
def planned : List (Attempt × PathName) :=
  (job.instances.drop s.completedTests).zipIdx.map fun member =>
    ({ solver := job.contestant.label, folder := job.folder,
       place := s.completedTests + member.2, number := w.attempts.length + member.2 }, member.1)

/-- What an attempt comes to. An instance that cannot be read counts as a failure. -/
def comesTo (files : FileTree) (attempt : Attempt × PathName) : Outcome :=
  match Dimacs.ofFile files attempt.2.text with
  | .ok f => (job.trial attempt.1).measure job.contestant.solver f Trial.timeLimit
  | .error fault => .error (.failed fault.message)

/-- The outcomes that come in if all instances are tried. -/
def coming : List Outcome := (job.planned s w).map (job.comesTo w.otherFiles)

/-- Every instance can be read, whatever the backup holds. -/
def Readable : Prop := ∀ path ∈ job.instances, ∃ f, Dimacs.ofFile w.otherFiles path.text = .ok f

/-- The statistics that are saved while outcomes come in. -/
def saves (statistics : Statistics) (s : FolderStatistics) : List Outcome → List Statistics
  | [] => []
  | o :: os =>
    let next := job.publish statistics (.recorded (s.deal o))
    next :: saves next (s.deal o) os

/-- Nothing gets in the way of what is printed and saved: no number is too long, and the backup has
a place. -/
structure Unhindered : Prop where
  counts : ∀ o ∈ job.coming s w, o.tooLong = false
  statistics : ∀ statistics ∈ job.saves w.statistics s (job.coming s w),
    statistics.toDocument.hasTooManyDigits = false
  place : w.files[backupPath]? ≠ some .directory

variable {job s w} {last : FolderStatistics} {w' : Workbench} {o : Outcome} {os : List Outcome}
  {fault : Option Fault}

/-- The attempt that comes next is the first one that is planned. -/
theorem planned_cons {path : PathName} (hPath : job.instances[s.completedTests]? = some path)
    (o : Outcome) (hAttempts : w'.attempts = job.nextAttempt s w :: w.attempts) :
    job.planned s w = (job.nextAttempt s w, path) :: job.planned (s.deal o) w' := by
  obtain ⟨hLt, hGet⟩ := List.getElem?_eq_some_iff.1 hPath
  rw [planned, List.drop_eq_getElem_cons hLt, hGet, List.zipIdx_cons, List.map_cons,
    List.zipIdx_succ, List.map_map, planned, FolderStatistics.deal_completedTests, hAttempts,
    List.length_cons]
  apply congrArg₂ List.cons rfl
  apply List.map_congr_left
  intro member _
  simp only [Function.comp_apply, Nat.add_assoc, Nat.add_comm 1]

/-- Nothing is planned once every instance is completed. -/
theorem planned_nil (h : job.instances.length ≤ s.completedTests) : job.planned s w = [] := by
  rw [planned, List.drop_eq_nil_of_le h]
  rfl

section Read

variable (hReadable : job.Readable w)

include hReadable

/-- Where every file of the folder can be read, none is unreadable. -/
theorem Unreadable.elim {e : FormulaFault} (h : job.Unreadable s w e) : False := by
  obtain ⟨path, hPath, hRead⟩ := h.read
  obtain ⟨f, hf⟩ := hReadable path (List.mem_of_getElem? hPath)
  rw [(w.files.keeps_erase backupPath).ofFile hf] at hRead
  cases hRead

/-- The outcome of the next attempt comes in first. -/
theorem Tries.coming_cons (h : job.Tries s w o) (hFiles : w'.otherFiles = w.otherFiles)
    (hAttempts : w'.attempts = job.nextAttempt s w :: w.attempts) :
    job.coming s w = o :: job.coming (s.deal o) w' := by
  obtain ⟨path, f, hPath, hRead, rfl⟩ := h.read
  obtain ⟨f', hf'⟩ := hReadable path (List.mem_of_getElem? hPath)
  obtain rfl : f' = f :=
    Except.ok.inj (((w.files.keeps_erase backupPath).ofFile hf').symm.trans hRead)
  rw [coming, planned_cons hPath (job.nextOutcome s w f') hAttempts, List.map_cons, comesTo, hf',
    coming, hFiles]
  rfl

end Read

section Step

variable (job s w) (line : String)

/-- An attempt and its save touch only files of results. -/
theorem otherFiles_toSave (o : Outcome) :
    (job.toSave s w o line).save.value.otherFiles = w.otherFiles :=
  Workbench.otherFiles_save _

/-- An attempt and its save add one attempt, the one made. -/
theorem attempts_toSave (o : Outcome) :
    (job.toSave s w o line).save.value.attempts = job.nextAttempt s w :: w.attempts :=
  (Workbench.save_spec _).2.2.1

/-- What a folder reads are not files of results, so it stays readable as long as the other files
stay. -/
theorem Readable.next {job : FolderJob} (h : job.Readable w)
    (hFiles : w'.otherFiles = w.otherFiles) : job.Readable w' := by
  rwa [Readable, hFiles]

end Step

/-- A run on the way through what is planned: its outcomes and attempts are the first ones, none of
them comes after the cut-off, and a run that nothing stops gets there. -/
structure Along (job : FolderJob) (s : FolderStatistics) (w : Workbench) (os : List Outcome)
    (w' : Workbench) (fault : Option Fault) : Prop where
  outcomes : os <+: job.coming s w
  attempts : w'.attempts = (((job.planned s w).take os.length).map Prod.fst).reverse ++ w.attempts
  bound : os.length ≤ Outcome.cutOff s.consecutiveTimeouts (job.coming s w)
  whole : fault = none → os.length = Outcome.cutOff s.consecutiveTimeouts (job.coming s w)

/-- A run that attempts nothing is along its plan when it is stopped or when the plan is cut off at
once. -/
theorem Along.start (hAttempts : w'.attempts = w.attempts)
    (hWhole : fault = none → Outcome.cutOff s.consecutiveTimeouts (job.coming s w) = 0) :
    job.Along s w [] w' fault :=
  ⟨List.nil_prefix, hAttempts, Nat.zero_le _, fun hFault => (hWhole hFault).symm⟩

/-- An attempt brings a run one step along. -/
theorem Along.cons {mid : Workbench} (hTries : job.Tries s w o) (hReadable : job.Readable w)
    (hFiles : mid.otherFiles = w.otherFiles)
    (hAttempts : mid.attempts = job.nextAttempt s w :: w.attempts)
    (h : job.Along (s.deal o) mid os w' fault) : job.Along s w (o :: os) w' fault := by
  have hComing := hTries.coming_cons hReadable hFiles hAttempts
  have hCut : Outcome.cutOff s.consecutiveTimeouts (job.coming s w) =
      Outcome.cutOff (s.deal o).consecutiveTimeouts (job.coming (s.deal o) mid) + 1 := by
    rw [hComing, Outcome.cutOff_cons_of_live hTries.live, FolderStatistics.deal_timeouts]
  refine ⟨?_, ?_, ?_, fun hFault => ?_⟩
  · rw [hComing]
    exact List.cons_prefix_cons.2 ⟨rfl, h.outcomes⟩
  · obtain ⟨path, f, hPath, -⟩ := hTries.read
    rw [planned_cons hPath o hAttempts, h.attempts, hAttempts, List.length_cons,
      List.take_succ_cons, List.map_cons, List.reverse_cons, List.append_assoc]
    rfl
  · rw [hCut]
    exact Nat.succ_le_succ h.bound
  · rw [hCut]
    exact congrArg Nat.succ (h.whole hFault)

/-- What is true of a record that nothing gets in the way of stays true after an attempt, and the
attempt is printed and saved. -/
theorem Unhindered.next (h : job.Unhindered s w) (hTries : job.Tries s w o)
    (hReadable : job.Readable w) (line : String) :
    o.tooLong = false ∧ (job.toSave s w o line).save.fault = none ∧
      job.Unhindered (s.deal o) (job.toSave s w o line).save.value := by
  obtain ⟨hCounts, hStatistics, hPlace⟩ := h
  rw [hTries.coming_cons hReadable (otherFiles_toSave job s w line o) (attempts_toSave ..)]
    at hCounts hStatistics
  rw [saves, List.forall_mem_cons] at hStatistics
  rw [List.forall_mem_cons] at hCounts
  have hSaved : (job.toSave s w o line).save.value.statistics =
      job.publish w.statistics (.recorded (s.deal o)) := (Workbench.save_spec _).2.1
  refine ⟨hCounts.1, Workbench.save_fault_eq_none hPlace hStatistics.1, hCounts.2, ?_, ?_⟩
  · rw [hSaved]
    exact hStatistics.2
  · rcases (job.toSave s w o line).save_cases with hSame | ⟨-, content, hStored⟩
    · rw [hSame]
      exact hPlace
    · rw [hStored]
      show ((job.toSave s w o line).files.insert backupPath _)[backupPath]? ≠ _
      rw [FileTree.getElem?_insert_entry, if_pos rfl]
      exact nofun

namespace FolderTrace

variable (h : FolderTrace job s w os last w' fault)

include h

/-- The run of a readable folder attempts exactly its plan up to the cut-off, or up to the fault
that stopped it. -/
theorem along (hReadable : job.Readable w) : job.Along s w os w' fault := by
  induction h with
  | @finished s w hAll =>
      refine .start rfl fun _ => ?_
      rw [coming, planned_nil hAll]
      rfl
  | gaveUp line hMore hMany => exact .start rfl fun _ => Outcome.cutOff_of_many hMany
  | unreadable h => exact (h.elim hReadable).elim
  | @unprinted s w o hTries =>
      have hFiles : (job.attempted s w).otherFiles = w.otherFiles := rfl
      exact .cons hTries hReadable hFiles rfl (.start rfl nofun)
  | @unsaved s w o line _ hTries =>
      have hFiles := otherFiles_toSave job s w line o
      exact .cons hTries hReadable hFiles (attempts_toSave ..) (.start rfl nofun)
  | @tried s _ w _ o line _ _ hTries _ _ ih =>
      have hFiles := otherFiles_toSave job s w line o
      exact .cons hTries hReadable hFiles (attempts_toSave ..) (ih (hReadable.next w hFiles))

/-- A run that nothing gets in the way of is not stopped. -/
theorem fault_eq_none (hReadable : job.Readable w) (hUnhindered : job.Unhindered s w) :
    fault = none := by
  induction h with
  | finished | gaveUp => rfl
  | unreadable h => exact (h.elim hReadable).elim
  | unprinted hTries hLong =>
      rw [(hUnhindered.next hTries hReadable "").1] at hLong
      cases hLong
  | unsaved hTries hStop =>
      rw [(hUnhindered.next hTries hReadable _).2.1] at hStop
      cases hStop
  | @tried s _ w _ o line _ _ hTries _ _ ih =>
      exact ih (hReadable.next w (otherFiles_toSave job s w line o))
        (hUnhindered.next hTries hReadable line).2.2

/-- With instances that can be read, only the files or a number that is too long stop a run. -/
theorem stop_of_readable (hReadable : job.Readable w) {stop : Fault} (hStop : fault = some stop) :
    (∃ e, stop = .access e) ∨ stop = .misuse .tooManyDigits := by
  induction h with
  | finished | gaveUp => cases hStop
  | unreadable h => exact (h.elim hReadable).elim
  | unprinted =>
      cases hStop
      exact .inr rfl
  | unsaved _ hSave =>
      cases hStop
      exact (Workbench.save_spec _).2.2.2 _ hSave
  | @tried s _ w _ o line _ _ _ _ _ ih =>
      exact ih (hReadable.next w (otherFiles_toSave job s w line o)) hStop

/-- What the record says at the end. -/
theorem continues : ∃ skipped, last.Continues s os skipped ∧ (fault ≠ none → skipped = 0) := by
  induction h with
  | finished | unreadable => exact ⟨0, .refl _, fun _ => rfl⟩
  | gaveUp => exact ⟨_, .giveUp _ _, fun hFault => (hFault rfl).elim⟩
  | unprinted | unsaved => exact ⟨0, .single _ _, fun _ => rfl⟩
  | tried _ _ _ ih =>
      obtain ⟨skipped, hContinues, hSkipped⟩ := ih
      exact ⟨skipped, hContinues.cons, hSkipped⟩

end FolderTrace

/-- A run tries exactly the instances before the cut-off, one after the other from the place where
the record ends, and gives up all others. Only the files or a number that is too long stop it
earlier, and then nothing is given up. Either way the next run can go on from the record. -/
theorem run_cuts_off (job : FolderJob) {s : FolderStatistics} {w : Workbench}
    (hCounts : s.Counts job.instances.length) (hReadable : job.Readable w) :
    let run := job.run { record := .recorded s, bench := w }
    let tried := Outcome.cutOff s.consecutiveTimeouts (job.coming s w)
    ∃ (last : FolderStatistics) (made skipped : Nat), made ≤ tried ∧
      run.value.record = .recorded last ∧ last.Counts job.instances.length ∧
      run.value.bench.attempts =
        (((job.planned s w).take made).map Prod.fst).reverse ++ w.attempts ∧
      last.Continues s ((job.coming s w).take made) skipped ∧
      (run.fault = none → made = tried ∧ last.completedTests = job.instances.length ∧
        skipped = job.instances.length - (s.completedTests + tried)) ∧
      (∀ stop, run.fault = some stop → skipped = 0 ∧
        ((∃ e, stop = .access e) ∨ stop = .misuse .tooManyDigits)) ∧
      (job.Unhindered s w → run.fault = none) := by
  intro run tried
  obtain ⟨os, last, w', fault, hTrace, hRun⟩ := exists_trace hCounts.outcomes job w
  obtain ⟨skipped, hContinues, hSkipped⟩ := hTrace.continues
  obtain ⟨hOutcomes, hAttempts, hLe, hWhole⟩ := hTrace.along hReadable
  have hBound := hTrace.completedTests_le hCounts.bound
  have hLast := hContinues.completedTests
  have hNext : last.Counts job.instances.length :=
    ⟨hContinues.outcomes_eq hCounts.outcomes, hBound⟩
  have hValue : run = { value := { record := .recorded last, bench := w' }, fault } := hRun
  rw [List.prefix_iff_eq_take] at hOutcomes
  rw [hOutcomes] at hContinues
  rw [hValue]
  refine ⟨last, os.length, skipped, hLe, rfl, hNext, hAttempts, hContinues, fun hFault => ?_,
    fun stop hStop => ⟨?_, hTrace.stop_of_readable hReadable hStop⟩,
    hTrace.fault_eq_none hReadable⟩
  · have hMade : os.length = tried := hWhole hFault
    have hAll := Nat.le_antisymm hBound (hTrace.length_le hFault)
    refine ⟨hMade, hAll, ?_⟩
    omega
  · exact hSkipped (Option.ne_none_iff_exists'.2 ⟨stop, hStop⟩)

/-- A solver that always takes too long, on twelve times the same instance. -/
def lateJob : FolderJob where
  contestant := { label := "a", solver := .answering none 0 }
  folder := "x"
  instances := List.replicate 12 (.ofString "a.cnf")
  trial _ := { Trial.plain with hangs := true }
  publish statistics _ := statistics

/-- Earlier runs had eight timeouts. -/
def lateRecord : FolderStatistics :=
  { FolderStatistics.fresh with inconclusive := 8, completedTests := 8, consecutiveTimeouts := 8 }

def lateBench : Workbench := .ofFiles Campaign.twiceFiles

theorem readable_late : lateJob.Readable lateBench := by
  intro path hPath
  have hText : (PathName.ofString "a.cnf").text = "a.cnf" := by decide
  have hKeeps : Campaign.twiceFiles.Keeps lateBench.otherFiles := by
    intro path e he
    have hOther : backupPath ≠ path := by
      rintro rfl
      have hNone : Campaign.twiceFiles[backupPath]? = none := by decide +kernel
      rw [hNone] at he
      cases he
    rw [Workbench.otherFiles, Std.ExtTreeMap.getElem?_erase, if_neg]
    · exact he
    · exact fun hSame => hOther (Std.LawfulEqCmp.eq_of_compare hSame)
  rw [(List.mem_replicate.1 hPath).2, hText]
  exact ⟨_, hKeeps.ofFile Campaign.ofFile_twiceFiles⟩

/-- Each of the four coming attempts is over the time limit. -/
theorem coming_late : lateJob.coming lateRecord lateBench =
    List.replicate 4 (.error (.timeout Trial.timeLimit)) := by
  rw [List.eq_replicate_iff]
  refine ⟨rfl, fun o ho => ?_⟩
  obtain ⟨⟨attempt, path⟩, hPlanned, rfl⟩ := List.mem_map.1 ho
  obtain ⟨member, hMember, hAttempt⟩ := List.mem_map.1 hPlanned
  have hPath : path ∈ lateJob.instances := by
    cases hAttempt
    exact List.mem_of_mem_drop (List.fst_mem_of_mem_zipIdx hMember)
  obtain ⟨f, hRead⟩ := readable_late path hPath
  rw [comesTo, hRead]
  rfl

theorem unhindered_late : lateJob.Unhindered lateRecord lateBench where
  counts := by
    rw [coming_late]
    intro o ho
    rw [(List.mem_replicate.1 ho).2]
    rfl
  statistics := by
    rw [coming_late]
    decide
  place := by decide +kernel

/-- Two more timeouts make ten, and the last two instances are given up. -/
theorem run_cuts_off_late :
    let run := lateJob.run { record := .recorded lateRecord, bench := lateBench }
    lateRecord.Counts lateJob.instances.length ∧ lateJob.Readable lateBench ∧
      lateJob.Unhindered lateRecord lateBench ∧ run.fault = none ∧
      run.value.bench.attempts.map Attempt.place = [9, 8] ∧
      ∃ last, run.value.record = .recorded last ∧ last.completedTests = 12 ∧
        last.inconclusive = 12 ∧ last.consecutiveTimeouts = 10 := by
  have hCounts : lateRecord.Counts lateJob.instances.length := ⟨rfl, Nat.le_add_right 8 4⟩
  obtain ⟨last, made, skipped, -, hRecord, -, hAttempts, hContinues, hEnd, -, hNoFault⟩ :=
    run_cuts_off lateJob hCounts readable_late
  have hFault := hNoFault unhindered_late
  obtain ⟨rfl, hAll, rfl⟩ := hEnd hFault
  rw [coming_late] at hAttempts hContinues
  refine ⟨hCounts, readable_late, unhindered_late, hFault, ?_, last, hRecord, hAll, ?_, ?_⟩
  · rw [hAttempts]
    rfl
  · rw [hContinues.inconclusive]
    rfl
  · rw [hContinues.timeouts]
    rfl

end FolderJob

end Benchmark

end SatLab
