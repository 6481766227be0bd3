import SatLab.Proofs.Benchmark.UpkeepRun

/-! What a benchmark accounts for. In the statistics and in every backup the record of a folder
counts each instance once, by the outcome of an attempt that was made, and a run that comes to its
end has counted all instances for every solver. -/

namespace SatLab

namespace Trial

/-- How a trial ends. Only a result in time that is no wrong model is measured; whatever a solver
raises, it is a failure. -/
inductive Ends (t : Trial) (solver : Solver) (f : Formula) (limit : Number) : Outcome → Prop where
  | late (hHangs : t.hangs = true) : Ends t solver f limit (.error (.timeout limit))
  | unmeasured (hLive : t.hangs = false) (hMemory : MemoryUse.ofReadings? t.memory = none) :
      Ends t solver f limit (.error (.failed readingTooLarge.message))
  | raised {memory : MemoryUse} {fault : SolverFault} (hLive : t.hangs = false)
      (hMemory : MemoryUse.ofReadings? t.memory = some memory)
      (hSolver : t.solver.getD solver f = .error fault) :
      Ends t solver f limit (.error (.failed fault.message))
  | wrong {memory : MemoryUse} {model : Assignment} {count : Int} (hLive : t.hangs = false)
      (hMemory : MemoryUse.ofReadings? t.memory = some memory)
      (hSolver : t.solver.getD solver f = .ok (some model, count))
      (hModel : f.satisfiedBy model = false) :
      Ends t solver f limit (.error (.failed wrongModel.message))
  | answered {memory : MemoryUse} {model : Option Assignment} {count : Int}
      (hLive : t.hangs = false) (hMemory : MemoryUse.ofReadings? t.memory = some memory)
      (hSolver : t.solver.getD solver f = .ok (model, count))
      (hModel : ∀ m, model = some m → f.satisfiedBy m = true) :
      Ends t solver f limit
        (.ok { satisfiable := model.isSome, count, elapsed := t.ended - t.started, memory })

/-- What a trial measures is one of the ends a trial can have: it comes too late, the solver fails
or gives a model that is none, a reading cannot be taken, or there is a measurement. -/
theorem ends_measure (t : Trial) (solver : Solver) (f : Formula) (limit : Number) :
    t.Ends solver f limit (t.measure solver f limit) := by
  rw [measure]
  cases hHangs : t.hangs with
  | true => exact .late hHangs
  | false =>
      rw [if_neg Bool.false_ne_true]
      cases hMemory : MemoryUse.ofReadings? t.memory with
      | none => exact .unmeasured hHangs hMemory
      | some memory =>
          simp only [checkedSolve, bind, Except.bind]
          cases hSolver : t.solver.getD solver f with
          | error fault => exact .raised hHangs hMemory hSolver
          | ok answer =>
              obtain ⟨model, count⟩ := answer
              cases model with
              | none =>
                  refine .answered hHangs hMemory hSolver fun m hm => ?_
                  cases hm
              | some m =>
                  cases hModel : f.satisfiedBy m with
                  | false =>
                      simp only [hModel]
                      exact .wrong hHangs hMemory hSolver hModel
                  | true =>
                      simp only [hModel, if_true]
                      refine .answered hHangs hMemory hSolver fun m' hm' => ?_
                      cases hm'
                      exact hModel

end Trial

namespace Benchmark

/-- What an attempt at the instance at a place of a folder can have come to. -/
abbrev Origin := String → String → Nat → PathName → Outcome → Prop

/-- The outcome is that of an attempt which a campaign made on its way from one bench to another:
one of its solvers was run on the instance as it was in the files at some moment. -/
def MadeBetween (c : Campaign) (start last : Workbench) : Origin := fun label folder place path o =>
  ∃ k ∈ c.contestants, k.label = label ∧ ∃ a ∈ last.attempts, start.attempts.length ≤ a.number ∧
    a.solver = label ∧ a.folder = folder ∧ a.place = place ∧
    ∃ t ∈ last.snapshots, ∃ f, Dimacs.ofFile t path.text = .ok f ∧
      (c.trial a).Ends k.solver f Trial.timeLimit o

/-- The outcome is that of an attempt in one of the calls. -/
def MadeIn (calls : List (Campaign × Workbench)) : Origin := fun label folder place path o =>
  ∃ call ∈ calls, MadeBetween call.1 call.2 (call.1.run call.2).value label folder place path o

/-- An outcome that was made by an attempt stays one while the bench goes on, since no attempt is
forgotten. -/
theorem MadeBetween.mono {c : Campaign} {start w w' : Workbench} (hGrows : w.Grows w')
    {label folder : String} {place : Nat} {path : PathName} {o : Outcome}
    (h : MadeBetween c start w label folder place path o) :
    MadeBetween c start w' label folder place path o := by
  obtain ⟨k, hk, hLabel, a, ha, hNumber, hSolver, hFolder, hPlace, t, ht, f, hRead, hEnds⟩ := h
  exact ⟨k, hk, hLabel, a, hGrows.attempts.subset ha, hNumber, hSolver, hFolder, hPlace, t,
    hGrows.snapshots.subset ht, f, hRead, hEnds⟩

/-- A record accounts for the instances of a folder: the first ones have these outcomes, the ones
that were given up are all that were left then, and a completed record leaves out none. -/
structure Accounts (Made : Origin) (label folder : String) (members : List PathName)
    (s : FolderStatistics) (os : List Outcome) (skipped : Nat) : Prop where
  tally : s.Tally os skipped
  made : ∀ i o, os[i]? = some o → ∃ path, members[i]? = some path ∧ Made label folder i path o
  bound : os.length + skipped ≤ members.length
  skip : skipped = 0 ∨
    FolderStatistics.timeoutLimit ≤ s.consecutiveTimeouts ∧ os.length + skipped = members.length
  whole : s.completed = true → os.length + skipped = members.length

/-- The record is one of a folder of these paths, and accounts for its instances. -/
def Accounted (paths : List PathName) (Made : Origin) (label folder : String)
    (s : FolderStatistics) : Prop :=
  ∃ members os skipped, (folder, members) ∈ groupByFolder paths ∧
    Accounts Made label folder members s os skipped

namespace Accounts

variable {Made Made' : Origin} {label folder : String} {members : List PathName}
  {s : FolderStatistics} {os : List Outcome} {skipped : Nat}

/-- A new record accounts for no instance. -/
theorem fresh (Made : Origin) (label folder : String) (members : List PathName) :
    Accounts Made label folder members .fresh [] 0 where
  tally := FolderStatistics.tally_fresh
  made := by
    intro i o ho
    rw [List.getElem?_nil] at ho
    cases ho
  bound := Nat.zero_le _
  skip := .inl rfl
  whole := fun hCompleted => Bool.noConfusion hCompleted

/-- Attempts that are added later do not matter to what a record accounts for. -/
theorem mono (h : Accounts Made label folder members s os skipped)
    (hImp : ∀ place path o, Made label folder place path o → Made' label folder place path o) :
    Accounts Made' label folder members s os skipped where
  tally := h.tally
  made := by
    intro i o ho
    obtain ⟨path, hPath, hMade⟩ := h.made i o ho
    exact ⟨path, hPath, hImp _ _ _ hMade⟩
  bound := h.bound
  skip := h.skip
  whole := h.whole

/-- The outcome of the next instance is added, as long as none was given up. -/
theorem deal (h : Accounts Made label folder members s os skipped)
    (hLive : s.consecutiveTimeouts < FolderStatistics.timeoutLimit) (hOpen : s.completed = false)
    {path : PathName} (hPath : members[s.completedTests]? = some path) {o : Outcome}
    (hMade : Made label folder s.completedTests path o) :
    Accounts Made label folder members (s.deal o) (os ++ [o]) 0 := by
  obtain rfl : skipped = 0 := by
    rcases h.skip with hNone | ⟨hMany, -⟩
    · exact hNone
    · exact absurd hMany (Nat.not_le.2 hLive)
  have hPlace : s.completedTests = os.length := h.tally.completedTests
  refine ⟨h.tally.deal o, fun i o' ho' => ?_, ?_, .inl rfl, fun hCompleted => ?_⟩
  · rcases Nat.lt_trichotomy i os.length with hLt | rfl | hGt
    · rw [List.getElem?_append_left hLt] at ho'
      exact h.made i o' ho'
    · rw [List.getElem?_concat_length] at ho'
      cases ho'
      rw [hPlace] at hPath hMade
      exact ⟨path, hPath, hMade⟩
    · rw [List.getElem?_eq_none (by rwa [List.length_append])] at ho'
      cases ho'
  · rw [List.length_append, List.length_singleton, ← hPlace]
    exact (List.getElem?_eq_some_iff.1 hPath).1
  · rw [FolderStatistics.deal_completed, hOpen] at hCompleted
    cases hCompleted

/-- The instances that are left are given up. -/
theorem giveUp (h : Accounts Made label folder members s os skipped)
    (hMore : s.completedTests < members.length)
    (hMany : FolderStatistics.timeoutLimit ≤ s.consecutiveTimeouts) :
    Accounts Made label folder members (s.giveUp (members.length - s.completedTests)) os
      (skipped + (members.length - s.completedTests)) := by
  have hAll : os.length + (skipped + (members.length - s.completedTests)) = members.length := by
    have hCount := h.tally.completedTests
    omega
  exact ⟨h.tally.giveUp _, h.made, Nat.le_of_eq hAll, .inr ⟨hMany, hAll⟩, fun _ => hAll⟩

/-- The folder is completed once all instances are counted. -/
theorem close (h : Accounts Made label folder members s os skipped)
    (hAll : s.completedTests = members.length) (rows : List SummaryRow) :
    Accounts Made label folder members { s with completed := true, rows } os skipped where
  tally := by
    obtain ⟨⟨hTimes, hMemories, hLeast, hLargest, hDecisions⟩, hInconclusive, hFailed, hTests,
      hTimeouts⟩ := h.tally
    exact ⟨⟨hTimes, hMemories, hLeast, hLargest, hDecisions⟩, hInconclusive, hFailed, hTests,
      hTimeouts⟩
  made := h.made
  bound := h.bound
  skip := h.skip
  whole := fun _ => h.tally.completedTests.symm.trans hAll

/-- All instances are counted as soon as the folder is dealt with. -/
theorem outcomes_eq (h : Accounts Made label folder members s os skipped)
    (hDealt : s.completed = true ∨ members.length ≤ s.completedTests) :
    s.outcomes = members.length := by
  rw [h.tally.outcomes_eq]
  have hCount := h.tally.completedTests
  rcases hDealt with hCompleted | hAll
  · exact hCount.trans (h.whole hCompleted)
  · exact Nat.le_antisymm (hCount ▸ h.bound) hAll

end Accounts

/-- The same for a record of one of the folders: it is accounted for by any attempts that include
those that were made. -/
theorem Accounted.mono {paths : List PathName} {Made Made' : Origin} {label folder : String}
    {s : FolderStatistics} (h : Accounted paths Made label folder s)
    (hImp : ∀ place path o, Made label folder place path o → Made' label folder place path o) :
    Accounted paths Made' label folder s := by
  obtain ⟨members, os, skipped, hMembers, hAccounts⟩ := h
  exact ⟨members, os, skipped, hMembers, hAccounts.mono hImp⟩

/-- A folder has one list of members. -/
theorem eq_of_mem_groupByFolder {paths : List PathName} {folder : String}
    {members members' : List PathName} (h : (folder, members) ∈ groupByFolder paths)
    (h' : (folder, members') ∈ groupByFolder paths) : members = members' := by
  have hLookup := Document.lookup_of_mem (nodup_groupByFolder paths) h
  rw [Document.lookup_of_mem (nodup_groupByFolder paths) h'] at hLookup
  exact (Option.some.inj hLookup).symm

namespace Campaign

/-- The outcomes known before a call, and those of the call. -/
def madeSince (c : Campaign) (start : Workbench) (Made : Origin) (w : Workbench) : Origin :=
  fun label folder place path o =>
    Made label folder place path o ∨ MadeBetween c start w label folder place path o

/-- A campaign accounts for every instance, however it ends. -/
theorem upholds_accounted (c : Campaign) (start : Workbench) (Ends : Fault → Prop)
    (Made : Origin) :
    c.Upholds start Ends fun w => Accounted c.paths (c.madeSince start Made w) where
  grows := by
    intro w w' label folder s hGrows hs
    exact hs.mono fun _ _ _ => Or.imp_right (MadeBetween.mono hGrows)
  fresh := fun _ k _ group hGroup => ⟨group.2, [], 0, hGroup, .fresh _ _ _ _⟩
  step := by
    intro w w' s s' hStart k hk group hGroup hOpen hStep hs
    obtain ⟨members, os, skipped, hMembers, hAccounts⟩ := hs
    obtain rfl : members = group.2 := eq_of_mem_groupByFolder hMembers hGroup
    cases hStep with
    | @deal o hTries =>
        obtain ⟨path, f, hPath, hRead, rfl⟩ := hTries.read
        let tried := (c.job k group.1 group.2).attempted s w
        have hGrows : w.Grows tried := .of_files rfl rfl (List.suffix_cons _ _)
        have hEarlier : Accounts (c.madeSince start Made tried) k.label group.1 group.2 s os
            skipped := hAccounts.mono fun _ _ _ => Or.imp_right (MadeBetween.mono hGrows)
        have hMade : MadeBetween c start tried k.label group.1 s.completedTests path
            ((c.job k group.1 group.2).nextOutcome s w f) :=
          ⟨k, hk, rfl, (c.job k group.1 group.2).nextAttempt s w, List.mem_cons_self,
            hStart.attempts.length_le, rfl, rfl, rfl, w.files, List.mem_cons_self, f, hRead,
            Trial.ends_measure _ _ _ _⟩
        exact ⟨group.2, _, 0, hGroup, hEarlier.deal hTries.live hOpen hPath (.inr hMade)⟩
    | giveUp hMore hMany =>
        exact ⟨group.2, os, _, hGroup, hAccounts.giveUp hMore hMany⟩
    | timeless hAll => exact ⟨group.2, os, skipped, hGroup, hAccounts.close hAll s.rows⟩
    | summarized hAll => exact ⟨group.2, os, skipped, hGroup, hAccounts.close hAll _⟩
    | unsummarized hAll => exact ⟨group.2, os, skipped, hGroup, hAccounts.close hAll s.rows⟩

end Campaign

/-- The number of instances that the records of a solver count. -/
def Ledger.counted (l : Ledger) (label : String) : Nat :=
  ((l.recordsOf label).map fun record => record.2.outcomes).sum

section Count

variable {paths : List PathName} {Made : Origin} {l : Ledger} {label : String}
  (hDistinct : l.Distinct) (hRecords : l.All (Accounted paths Made))
  (hDealt : ∀ group ∈ groupByFolder paths, l.Dealt label group)

include hRecords hDealt

/-- A folder that is dealt with has a record that counts all its members. -/
theorem exists_outcomes_eq {group : String × List PathName} (hGroup : group ∈ groupByFolder paths) :
    ∃ s, l.record? label group.1 = some s ∧ s.outcomes = group.2.length := by
  obtain ⟨s, hs, hDone⟩ := hDealt group hGroup
  obtain ⟨members, os, skipped, hMembers, hAccounts⟩ := hRecords label group.1 s hs
  obtain rfl := eq_of_mem_groupByFolder hMembers hGroup
  exact ⟨s, hs, hAccounts.outcomes_eq hDone⟩

include hDistinct

/-- A solver that has dealt with all folders has counted all paths. -/
theorem counted_eq : l.counted label = paths.length := by
  have hCounts : ((l.recordsOf label).map fun record => (record.1, record.2.outcomes)).Perm
      ((groupByFolder paths).map fun group => (group.1, group.2.length)) := by
    have hLeft : ((l.recordsOf label).map fun record => (record.1, record.2.outcomes)).Nodup := by
      refine .of_map Prod.fst ?_
      rw [List.map_map]
      exact hDistinct.nodup_recordsOf label
    have hRight : ((groupByFolder paths).map fun group => (group.1, group.2.length)).Nodup := by
      refine .of_map Prod.fst ?_
      rw [List.map_map]
      exact nodup_groupByFolder paths
    refine (List.perm_ext_iff_of_nodup hLeft hRight).2 fun count => ?_
    constructor
    · intro hCount
      obtain ⟨⟨folder, s⟩, hRecord, rfl⟩ := List.mem_map.1 hCount
      have hs : l.record? label folder = some s := by
        rw [← Ledger.lookup_recordsOf]
        exact Document.lookup_of_mem (hDistinct.nodup_recordsOf label) hRecord
      obtain ⟨members, -, -, hMembers, -⟩ := hRecords label folder s hs
      obtain ⟨s', hs', hOutcomes⟩ := exists_outcomes_eq hRecords hDealt hMembers
      rw [hs] at hs'
      cases hs'
      exact List.mem_map.2 ⟨_, hMembers, by rw [← hOutcomes]⟩
    · intro hCount
      obtain ⟨group, hGroup, rfl⟩ := List.mem_map.1 hCount
      obtain ⟨s, hs, hOutcomes⟩ := exists_outcomes_eq hRecords hDealt hGroup
      rw [← Ledger.lookup_recordsOf] at hs
      exact List.mem_map.2 ⟨_, Document.mem_of_lookup hs, by rw [← hOutcomes]⟩
  have hSum := (hCounts.map Prod.snd).sum_nat
  rw [List.map_map, List.map_map] at hSum
  calc l.counted label
      = ((groupByFolder paths).map fun group => group.2.length).sum := hSum
    _ = ((groupByFolder paths).flatMap Prod.snd).length := List.length_flatMap.symm
    _ = paths.length := (perm_groupByFolder paths).length_eq

end Count

namespace Campaign

/-- The records that account for the instances of these paths, by attempts in these calls. -/
abbrev AccountedIn (paths : List PathName) (calls : List (Campaign × Workbench))
    (label folder : String) (s : FolderStatistics) : Prop :=
  s.Coherent ∧ Accounted paths (MadeIn calls) label folder s

/-- A call accounts for every instance if the calls before it did. -/
theorem run_accounted (c : Campaign) {calls : List (Campaign × Workbench)} {w : Workbench}
    {l : Ledger} (hKept : Kept (AccountedIn c.paths calls) w l) :
    (c.run w).fault ≠ some (.misuse .nothingToAverage) ∧
      ∃ l', Kept (AccountedIn c.paths ((c, w) :: calls)) (c.run w).value l' ∧
        ((c.run w).fault = none → ∀ k ∈ c.contestants, l'.counted k.label = c.paths.length) := by
  have hUp := c.upholds_accounted w (fun _ => True) (MadeIn calls)
  obtain ⟨-, hAveraged, hLeaves⟩ := hUp.run
    (hKept.mono fun _ _ _ hs => ⟨hs.1, hs.2.mono fun _ _ _ => .inl⟩)
  obtain ⟨l', hl'⟩ := hLeaves fun _ _ => trivial
  have hMade : ∀ label folder place path o,
      c.madeSince w (MadeIn calls) (c.run w).value label folder place path o →
        MadeIn ((c, w) :: calls) label folder place path o := by
    rintro label folder place path o (⟨call, hCall, hEarlier⟩ | hNow)
    · exact ⟨call, List.mem_cons_of_mem _ hCall, hEarlier⟩
    · exact ⟨(c, w), List.mem_cons_self, hNow⟩
  have hLast : Kept (AccountedIn c.paths ((c, w) :: calls)) (c.run w).value l' :=
    hl'.kept.mono fun label folder _ hs => ⟨hs.coherent, hs.good.mono (hMade label folder)⟩
  exact ⟨hAveraged, l', hLast, fun hEnd k hk => counted_eq hLast.distinct
    (hLast.records.imp fun _ _ _ hs => hs.2) (hl'.dealt hEnd k hk)⟩

/-- In every call on the same paths, whatever the calls and restarts before it, each instance is
counted once: at its end and in every backup there has been, each record counts the outcomes of
attempts at the first instances of its folder, in order, and the instances it has given up. Times,
memory and decisions are those of the outcomes that were measured. A call that comes to its end has
counted all paths for every solver, and no call averages an empty list. -/
theorem run_accounts (c : Campaign) {calls : List (Campaign × Workbench)} {w : Workbench}
    (h : History (fun other => other.paths = c.paths) (fun _ => True) calls w) :
    let run := c.run w
    run.fault ≠ some (.misuse .nothingToAverage) ∧
      (∃ l : Ledger, run.value.statistics = l.statistics ∧ l.Distinct ∧
        l.All (AccountedIn c.paths ((c, w) :: calls)) ∧
        (run.fault = none → ∀ k ∈ c.contestants, l.counted k.label = c.paths.length)) ∧
      ∀ t ∈ run.value.snapshots,
        BackupLeft (·.All (AccountedIn c.paths ((c, w) :: calls))) t[backupPath]? := by
  intro run
  obtain ⟨first, hFirst⟩ := h.kept (R := AccountedIn c.paths) fun {_ _ other _} hKept hSame _ => by
    rw [← hSame] at hKept ⊢
    obtain ⟨-, l', hLast, -⟩ := other.run_accounted hKept
    exact ⟨l', hLast⟩
  obtain ⟨hAveraged, l, hLast, hCounted⟩ := c.run_accounted hFirst
  exact ⟨hAveraged, ⟨l, hLast.statistics, hLast.distinct, hLast.records, hCounted⟩, hLast.backups⟩

/-- The second process goes on from the files of the first one. -/
theorem run_accounts_twice :
    let left := (twice.run (.ofFiles twiceFiles)).value.files
    let run := twice.run (.ofFiles left)
    History (fun other => other.paths = twice.paths) (fun _ => True)
        [(twice, .ofFiles twiceFiles)] (.ofFiles left) ∧
      run.fault = none ∧
      ∃ l : Ledger, run.value.statistics = l.statistics ∧
        l.All (AccountedIn twice.paths [(twice, .ofFiles left), (twice, .ofFiles twiceFiles)]) ∧
        l.counted "a" = 2 := by
  intro left run
  have hHistory := history_twice (fun other => other.paths = Campaign.twice.paths) rfl fun _ => True
  have hChain : twice.Interrupted twiceFiles 1 left := .stopped .never List.mem_cons_self
  have hEnd : run.fault = none := fault_twice hChain (Nat.one_lt_pow (by decide) (by decide))
  obtain ⟨-, ⟨l, hStatistics, -, hAll, hCounted⟩, -⟩ := run_accounts twice hHistory
  exact ⟨hHistory, hEnd, l, hStatistics, hAll, hCounted hEnd _ List.mem_cons_self⟩

end Campaign

end Benchmark

end SatLab
