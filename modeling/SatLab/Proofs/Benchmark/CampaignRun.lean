import SatLab.Proofs.Benchmark.FolderRun

/-! All contestants on all folders. Whatever has been saved of the ledger, a run takes it to the
same end. -/

namespace SatLab

namespace Benchmark

/-! ### The folders of a campaign -/

/-- A path goes to the group of its folder, or opens a group behind all others. -/
theorem map_fst_addToGroup (groups : List (String × List PathName)) (p : PathName) :
    (addToGroup groups p).map Prod.fst =
      if p.folder ∈ groups.map Prod.fst then groups.map Prod.fst
      else groups.map Prod.fst ++ [p.folder] := by
  induction groups with
  | nil => rfl
  | cons group groups ih =>
      obtain ⟨folder, members⟩ := group
      by_cases hFolder : folder = p.folder
      · simp [addToGroup, hFolder]
      · have hOther : p.folder ≠ folder := Ne.symm hFolder
        simp only [addToGroup, if_neg hFolder, List.map_cons, ih, List.mem_cons, hOther, false_or]
        split <;> rfl

/-- Grouping loses no path and adds none. -/
theorem perm_addToGroup (groups : List (String × List PathName)) (p : PathName) :
    ((addToGroup groups p).flatMap Prod.snd).Perm (groups.flatMap Prod.snd ++ [p]) := by
  induction groups with
  | nil => exact .refl _
  | cons group groups ih =>
      obtain ⟨folder, members⟩ := group
      rw [addToGroup]
      split
      · simp only [List.flatMap_cons, List.append_assoc]
        exact List.perm_append_comm.append_left members
      · simp only [List.flatMap_cons, List.append_assoc]
        exact ih.append_left members

/-- No folder is there twice. -/
theorem nodup_groupByFolder (paths : List PathName) :
    ((groupByFolder paths).map Prod.fst).Nodup := by
  have hStart : (([] : List (String × List PathName)).map Prod.fst).Nodup := List.nodup_nil
  refine List.foldlRecOn (motive := fun groups => (groups.map Prod.fst).Nodup) paths addToGroup
    hStart fun groups hGroups p _ => ?_
  rw [map_fst_addToGroup]
  split
  · exact hGroups
  · rename_i hNew
    rw [← List.concat_eq_append]
    exact hGroups.concat hNew

/-- The members of all folders are the paths. -/
theorem perm_groupByFolder (paths : List PathName) :
    ((groupByFolder paths).flatMap Prod.snd).Perm paths := by
  have hAll : ∀ groups : List (String × List PathName),
      ((paths.foldl addToGroup groups).flatMap Prod.snd).Perm
        (groups.flatMap Prod.snd ++ paths) := by
    induction paths with
    | nil => exact fun groups => by simp
    | cons p paths ih =>
        intro groups
        have hFirst := (perm_addToGroup groups p).append_right paths
        rw [List.append_assoc] at hFirst
        exact (ih _).trans hFirst
  exact hAll []

section Members

variable {paths : List PathName} {group : String × List PathName} (h : group ∈ groupByFolder paths)

include h

/-- What stands in a group is one of the paths. -/
theorem mem_of_mem_groupByFolder {q : PathName} (hq : q ∈ group.2) : q ∈ paths :=
  (perm_groupByFolder paths).mem_iff.1 (List.mem_flatMap.2 ⟨group, h, hq⟩)

/-- No group has more members than there are paths. -/
theorem length_le_of_mem_groupByFolder : group.2.length ≤ paths.length := by
  rw [← (perm_groupByFolder paths).length_eq, List.flatMap_def]
  exact (List.sublist_flatten_of_mem (List.mem_map_of_mem h)).length_le

end Members

/-! ### The course of a campaign -/

/-- Courses one after the other, each under its name, up to the first one that is stopped. -/
def gather {α β : Type} (name : α → String) (course : α → Reached Misuse β) :
    List α → Reached Misuse (List (String × β))
  | [] => .done []
  | x :: rest =>
    match (course x).fault with
    | some fault => .stopped [(name x, (course x).value)] fault
    | none =>
      let more := gather name course rest
      { more with value := (name x, (course x).value) :: more.value }

section Gather

variable {α β : Type} {name : α → String} {course : α → Reached Misuse β} {x : α} {rest : List α}

/-- A fault in the first course is the fault of all: the rest is not started. -/
theorem gather_cons_of_some {fault : Misuse} (h : (course x).fault = some fault) :
    gather name course (x :: rest) = .stopped [(name x, (course x).value)] fault := by
  rw [gather, h]

/-- After a course without a fault the others follow. -/
theorem gather_cons_of_none (h : (course x).fault = none) :
    gather name course (x :: rest) =
      { value := (name x, (course x).value) :: (gather name course rest).value,
        fault := (gather name course rest).fault } := by
  rw [gather, h]

/-- Courses that all come to their end are gathered as they are, and none has a fault. -/
theorem gather_eq_done (h : (gather name course rest).fault = none) :
    (gather name course rest).value = rest.map (fun x => (name x, (course x).value)) ∧
      ∀ x ∈ rest, (course x).fault = none := by
  induction rest with
  | nil => exact ⟨rfl, List.forall_mem_nil _⟩
  | cons x rest ih =>
      cases hFault : (course x).fault with
      | some fault =>
          rw [gather_cons_of_some hFault] at h
          cases h
      | none =>
          rw [gather_cons_of_none hFault] at h ⊢
          obtain ⟨hValue, hRest⟩ := ih h
          exact ⟨by rw [hValue, List.map_cons], List.forall_mem_cons.2 ⟨hFault, hRest⟩⟩

/-- If no course has a fault, all are gathered without one. -/
theorem gather_fault (h : ∀ x ∈ rest, (course x).fault = none) :
    (gather name course rest).fault = none := by
  induction rest with
  | nil => rfl
  | cons x rest ih =>
      rw [List.forall_mem_cons] at h
      rw [gather_cons_of_none h.1, ih h.2]

end Gather

namespace Campaign

variable (c : Campaign) (files : FileTree)

def groups : List (String × List PathName) := groupByFolder c.paths

/-- What the record of a folder comes to. -/
def folderCourse (contestant : Contestant) (group : String × List PathName) :
    Reached Misuse FolderStatistics :=
  FolderStatistics.conclude (c.outcomes files contestant group.1 group.2) contestant.label group.1

/-- What the records of folders come to. -/
def foldersCourse (contestant : Contestant) :
    List (String × List PathName) → Reached Misuse (List (String × FolderStatistics)) :=
  gather Prod.fst (c.folderCourse files contestant)

/-- What the ledger comes to, whatever becomes of the runs: it depends on the outcomes alone. -/
def ledgerCourse : List Contestant → Reached Misuse Ledger :=
  gather Contestant.label fun contestant => c.foldersCourse files contestant c.groups

/-- The last records of folders. -/
def lastRecords (contestant : Contestant) (groups : List (String × List PathName)) :
    List (String × FolderStatistics) :=
  groups.map fun group => (group.1, (c.folderCourse files contestant group).value)

/-- The ledger of contestants that are done with all folders. -/
def fullLedger (contestants : List Contestant) : Ledger :=
  contestants.map fun contestant => (contestant.label, c.lastRecords files contestant c.groups)

/-- A contestant gets through folders. -/
def Passes (contestant : Contestant) (groups : List (String × List PathName)) : Prop :=
  ∀ group ∈ groups, (c.folderCourse files contestant group).fault = none

/-- All last records are there. -/
def Complete (contestant : Contestant) (groups : List (String × List PathName))
    (records : List (String × FolderStatistics)) : Prop :=
  c.Passes files contestant groups ∧ records = c.lastRecords files contestant groups

/-- What may be saved for a contestant: the last records of the first folders, and perhaps a record
on the way for the next one. -/
inductive Begun (contestant : Contestant) :
    List (String × List PathName) → List (String × FolderStatistics) → Prop where
  | none (groups : List (String × List PathName)) : Begun contestant groups []
  | pending {group : String × List PathName} (groups : List (String × List PathName)) {i : Nat}
      {s : FolderStatistics}
      (h : FolderStatistics.Pending (c.outcomes files contestant group.1 group.2) i s) :
      Begun contestant (group :: groups) [(group.1, s)]
  | closed {group : String × List PathName} {groups : List (String × List PathName)}
      {records : List (String × FolderStatistics)}
      (hDone : (c.folderCourse files contestant group).fault = Option.none)
      (h : Begun contestant groups records) :
      Begun contestant (group :: groups)
        ((group.1, (c.folderCourse files contestant group).value) :: records)

/-- What may be saved for all contestants: only the last one that is there can have folders left. -/
inductive Known : List Contestant → Ledger → Prop where
  | none (contestants : List Contestant) : Known contestants []
  | begun {contestant : Contestant} {contestants : List Contestant}
      {records : List (String × FolderStatistics)} {l : Ledger}
      (hRecords : c.Begun files contestant c.groups records) (hRest : Known contestants l)
      (hOrder : c.Complete files contestant c.groups records ∨ l = []) :
      Known (contestant :: contestants) ((contestant.label, records) :: l)

variable {c files}

theorem map_fst_lastRecords (contestant : Contestant) (groups : List (String × List PathName)) :
    (c.lastRecords files contestant groups).map Prod.fst = groups.map Prod.fst := by
  rw [lastRecords, List.map_map]
  rfl

/-- The solvers of the ledger of a whole campaign are the contestants in their order. -/
theorem map_fst_fullLedger (contestants : List Contestant) :
    (c.fullLedger files contestants).map Prod.fst = contestants.map Contestant.label := by
  rw [fullLedger, List.map_map]
  rfl

/-- A beginning of the folders may be put in front of records that are begun, once all its folders
are passed. -/
theorem Begun.append {contestant : Contestant} {groups first : List (String × List PathName)}
    {records : List (String × FolderStatistics)} (h : c.Begun files contestant groups records)
    (hFirst : c.Passes files contestant first) :
    c.Begun files contestant (first ++ groups)
      (c.lastRecords files contestant first ++ records) := by
  induction first with
  | nil => exact h
  | cons group first ih =>
      rw [Passes, List.forall_mem_cons] at hFirst
      exact .closed hFirst.1 (ih hFirst.2)

/-- All last records may be saved. -/
theorem Begun.ofPasses {contestant : Contestant} {groups : List (String × List PathName)}
    (h : c.Passes files contestant groups) :
    c.Begun files contestant groups (c.lastRecords files contestant groups) := by
  have hNone : c.Begun files contestant [] [] := .none []
  have hBegun := hNone.append h
  rwa [List.append_nil, List.append_nil] at hBegun

theorem Begun.eq_nil {contestant : Contestant} {records : List (String × FolderStatistics)}
    (h : c.Begun files contestant [] records) : records = [] := by
  cases h
  rfl

/-- Contestants that have passed all folders may be put in front of a known ledger. -/
theorem Known.append {contestants before : List Contestant} {l : Ledger}
    (h : c.Known files contestants l) (hBefore : ∀ k ∈ before, c.Passes files k c.groups) :
    c.Known files (before ++ contestants) (c.fullLedger files before ++ l) := by
  induction before with
  | nil => exact h
  | cons contestant before ih =>
      rw [List.forall_mem_cons] at hBefore
      exact .begun (.ofPasses hBefore.1) (ih hBefore.2) (.inl ⟨hBefore.1, rfl⟩)

/-- The whole ledger may be saved. -/
theorem Known.ofPasses {contestants : List Contestant}
    (h : ∀ k ∈ contestants, c.Passes files k c.groups) :
    c.Known files contestants (c.fullLedger files contestants) := by
  have hNone : c.Known files [] [] := .none []
  have hKnown := hNone.append h
  rwa [List.append_nil, List.append_nil] at hKnown

/-- The record of a folder that is passed can be written: it was, when the folder was closed. -/
theorem writable_lastRecords {contestant : Contestant} {groups : List (String × List PathName)}
    (h : c.Passes files contestant groups) :
    ∀ record ∈ c.lastRecords files contestant groups, record.2.Writable := by
  intro record hRecord
  obtain ⟨group, hGroup, rfl⟩ := List.mem_map.1 hRecord
  exact (FolderStatistics.conclude_eq_done (Reached.eq_done (h group hGroup))).2

/-- Folders have different names, so the records of some of them do. -/
theorem nodup_lastRecords (contestant : Contestant) {groups : List (String × List PathName)}
    (h : groups <+: c.groups) : ((c.lastRecords files contestant groups).map Prod.fst).Nodup := by
  rw [map_fst_lastRecords]
  exact (nodup_groupByFolder c.paths).sublist (h.sublist.map Prod.fst)

/-- The ledger of a whole campaign is distinct if the labels of the contestants are. -/
theorem distinct_fullLedger {contestants : List Contestant}
    (h : (contestants.map Contestant.label).Nodup) :
    (c.fullLedger files contestants).Distinct where
  labels := by rwa [map_fst_fullLedger]
  folders := by
    intro entry hEntry
    obtain ⟨contestant, -, rfl⟩ := List.mem_map.1 hEntry
    exact nodup_lastRecords contestant (List.prefix_refl _)

/-- A ledger of folders that were all passed can be saved as a whole. -/
theorem writable_fullLedger {contestants : List Contestant}
    (h : ∀ k ∈ contestants, c.Passes files k c.groups) :
    (c.fullLedger files contestants).Writable := by
  intro entry hEntry
  obtain ⟨contestant, hContestant, rfl⟩ := List.mem_map.1 hEntry
  exact writable_lastRecords (h contestant hContestant)

/-- The stage of a contestant on a folder, after the stages before it. -/
def stage (c : Campaign) (files : FileTree) (before : List Contestant) (contestant : Contestant)
    (first : List (String × List PathName)) (group : String × List PathName) : Stage :=
  { before := c.fullLedger files before, contestant,
    first := c.lastRecords files contestant first, folder := group.1, members := group.2 }

section Stages

variable {before after : List Contestant} {contestant : Contestant}
  {first rest : List (String × List PathName)} {group : String × List PathName}

/-- Every stage is ready when its turn comes. -/
theorem ready_stage (hRepeat : c.Repeatable files)
    (hContestants : c.contestants = before ++ contestant :: after)
    (hGroups : c.groups = first ++ group :: rest)
    (hBefore : ∀ k ∈ before, c.Passes files k c.groups)
    (hFirst : c.Passes files contestant first) :
    (c.stage files before contestant first group).Ready c files
      (c.Known files c.contestants) := by
  have hKnown : ∀ s, c.Begun files contestant (group :: rest) [(group.1, s)] →
      c.Known files c.contestants ((c.stage files before contestant first group).ledger s) := by
    intro s hBegun
    rw [hContestants]
    refine Known.append (.begun ?_ (.none after) (.inr rfl)) hBefore
    rw [hGroups]
    exact hBegun.append hFirst
  refine ⟨fun path hPath => ?_, fun s => ⟨?_, ?_⟩, fun s hs => ?_, fun i s hs => hKnown s ?_,
    fun s hs => hKnown s ?_⟩
  · have hGroup : group ∈ groupByFolder c.paths := by
      rw [← groups, hGroups]
      exact List.mem_append_right _ List.mem_cons_self
    exact mem_of_mem_groupByFolder hGroup hPath
  · have hLabels := hRepeat.labels
    rw [hContestants, List.append_cons, List.map_append] at hLabels
    simpa [Stage.ledger, stage, map_fst_fullLedger] using hLabels.of_append_left
  · have hStage : (first ++ [group]) <+: c.groups := ⟨rest, by simp [hGroups]⟩
    have hRecords : ((c.lastRecords files contestant (first ++ [group])).map Prod.fst).Nodup :=
      nodup_lastRecords contestant hStage
    have hEarlier : (before.map Contestant.label).Nodup := by
      have hLabels := hRepeat.labels
      rw [hContestants, List.map_append] at hLabels
      exact hLabels.of_append_left
    rw [Stage.ledger, List.forall_mem_append, List.forall_mem_singleton]
    refine ⟨(distinct_fullLedger hEarlier).folders, ?_⟩
    simpa [stage, map_fst_lastRecords] using hRecords
  · rw [Stage.ledger, Ledger.Writable, List.forall_mem_append, List.forall_mem_singleton,
      List.forall_mem_append, List.forall_mem_singleton]
    exact ⟨writable_fullLedger hBefore, writable_lastRecords hFirst, hs⟩
  · exact .pending rest hs
  · have hCourse : c.folderCourse files contestant group = .done s := hs
    have hDone : (c.folderCourse files contestant group).fault = none := by
      rw [hCourse]
      rfl
    have hClosed := Begun.closed hDone (.none rest)
    rwa [hCourse] at hClosed

end Stages

/-! ### Folders in turn -/

section Folders

variable {count n : Nat} {w : Workbench} {contestant : Contestant}

/-- A folder is left alone if its record is completed, and run from its record otherwise. -/
theorem visitFolder_eq {before after : Ledger} {first records : List (String × FolderStatistics)}
    {folder : String} (hLabel : contestant.label ∉ before.map Prod.fst)
    (hFolder : folder ∉ first.map Prod.fst)
    (hStatistics : w.statistics =
      Ledger.statistics (before ++ (contestant.label, first ++ records) :: after))
    {s : FolderStatistics} (hRecord : (records.lookup folder).getD .fresh = s)
    (members : List PathName) (table : String) :
    c.visitFolder table contestant folder members w =
      if s.completed then
        .done (Workbench.printLine { w with
          statistics := Ledger.statistics
            (before ++ (contestant.label, first ++ Document.putField records folder s) :: after) }
          (">> Skipping completed: " ++ contestant.label ++ " - " ++ folder))
      else c.runFolder table contestant folder members (.recorded s) { w with
        statistics := Ledger.statistics
          (before ++ (contestant.label, first ++ Document.putField records folder s) :: after) } := by
  have hKnown : ((records.lookup folder).map FolderRecord.recorded).getD .fresh =
      .recorded s := by
    rw [← hRecord]
    cases records.lookup folder <;> rfl
  rw [visitFolder, hStatistics, Ledger.folder?_eq hLabel hFolder]
  simp only [hKnown, publish, Ledger.putFolder_eq hLabel hFolder, FolderRecord.isCompleted]
  cases s.completed <;> simp only [Bool.false_eq_true, if_true, if_false]

variable {before later : List Contestant} {first rest : List (String × List PathName)}
  {group : String × List PathName} {records : List (String × FolderStatistics)} {after : Ledger}

/-- The ledger when it is a contestant's turn on the folders after the first ones. -/
def ledgerAt (c : Campaign) (files : FileTree) (before : List Contestant) (contestant : Contestant)
    (first : List (String × List PathName)) (after : Ledger)
    (records : List (String × FolderStatistics)) : Ledger :=
  c.fullLedger files before ++
    (contestant.label, c.lastRecords files contestant first ++ records) :: after

theorem ledgerAt_concat :
    c.ledgerAt files before contestant (first ++ [group]) after records =
      c.ledgerAt files before contestant first after
        ((group.1, (c.folderCourse files contestant group).value) :: records) := by
  simp [ledgerAt, lastRecords]

variable (hRepeat : c.Repeatable files) (hCount : n < count) (hShort : n < 10 ^ 239)
  (hContestants : c.contestants = before ++ contestant :: later)
  (hBefore : ∀ k ∈ before, c.Passes files k c.groups)

section Visit

variable (hFirst : c.Passes files contestant first) (hGroups : c.groups = first ++ group :: rest)

include hRepeat hContestants hBefore hFirst hGroups

include hCount hShort in
/-- A folder whose records are last in the ledger is run from its record. -/
theorem visitFolder_open {i : Nat} {s : FolderStatistics}
    (hPending : FolderStatistics.Pending (c.outcomes files contestant group.1 group.2) i s)
    (hRecords : records = [(group.1, s)] ∨ records = [] ∧ s = .fresh)
    (hStanding : Standing files (c.Known files c.contestants) count n w
      (c.ledgerAt files before contestant first [] records)) :
    let run := c.visitFolder (tableAt n) contestant group.1 group.2 w
    let p := c.stage files before contestant first group
    Follows (p.StandsAt files (c.Known files c.contestants) count n) run (p.course c files) ∧
      ((p.course c files).fault = none → Saved run.value (p.ledger (p.course c files).value)) := by
  have hReady := ready_stage hRepeat hContestants hGroups hBefore hFirst
  have hLabel : contestant.label ∉ (c.fullLedger files before).map Prod.fst :=
    Stage.label_not_mem (hReady.distinct s)
  have hFolder : group.1 ∉ (c.lastRecords files contestant first).map Prod.fst :=
    Stage.folder_not_mem (hReady.distinct s)
  have hLookup : (records.lookup group.1).getD .fresh = s := by
    rcases hRecords with rfl | ⟨rfl, rfl⟩
    · simp
    · rfl
  have hPut : Document.putField records group.1 s = [(group.1, s)] := by
    rcases hRecords with rfl | ⟨rfl, rfl⟩
    · simp [Document.putField]
    · rfl
  have hRows : (c.ledgerAt files before contestant first [] [(group.1, s)]).rows =
      (c.ledgerAt files before contestant first [] records).rows := by
    rcases hRecords with rfl | ⟨rfl, rfl⟩
    · rfl
    · simp [ledgerAt, Ledger.rows, FolderStatistics.fresh]
  have hVisit := visitFolder_eq (c := c) hLabel hFolder hStanding.statistics hLookup group.2
    (tableAt n)
  rw [hPut, if_neg (by simp [hPending.completed_eq])] at hVisit
  have hStart : Standing files (c.Known files c.contestants) count n
      { w with
        statistics := (c.ledgerAt files before contestant first [] [(group.1, s)]).statistics }
      ((c.stage files before contestant first group).ledger s) :=
    hStanding.change rfl rfl rfl hRows
  intro run p
  have hRun : run = c.runFolder (tableAt n) contestant group.1 group.2 (.recorded s)
    { w with
      statistics := (c.ledgerAt files before contestant first [] [(group.1, s)]).statistics } :=
    hVisit
  rw [hRun]
  exact runFolder_eq hStart hReady hCount hShort hRepeat hPending

/-- A folder that is completed is left alone. -/
theorem visitFolder_closed (hDone : (c.folderCourse files contestant group).fault = none)
    (hStanding : Standing files (c.Known files c.contestants) count n w
      (c.ledgerAt files before contestant (first ++ [group]) after records)) :
    ∃ w', c.visitFolder (tableAt n) contestant group.1 group.2 w = .done w' ∧
      Standing files (c.Known files c.contestants) count n w'
        (c.ledgerAt files before contestant (first ++ [group]) after records) ∧
      w'.files = w.files ∧ w'.attempts = w.attempts := by
  have hReady := ready_stage hRepeat hContestants hGroups hBefore hFirst
  have hLabel : contestant.label ∉ (c.fullLedger files before).map Prod.fst :=
    Stage.label_not_mem (hReady.distinct .fresh)
  have hFolder : group.1 ∉ (c.lastRecords files contestant first).map Prod.fst :=
    Stage.folder_not_mem (hReady.distinct .fresh)
  have hCompleted : (c.folderCourse files contestant group).value.completed = true :=
    (FolderStatistics.conclude_eq_done (Reached.eq_done hDone)).1
  rw [ledgerAt_concat] at hStanding ⊢
  have hVisit := visitFolder_eq (c := c) hLabel hFolder hStanding.statistics
    (s := (c.folderCourse files contestant group).value) (by simp) group.2 (tableAt n)
  rw [if_pos hCompleted] at hVisit
  refine ⟨_, hVisit, hStanding.change rfl rfl ?_ rfl, rfl, rfl⟩
  simp [Document.putField, ledgerAt, Workbench.printLine]

end Visit

/-- The bench stands at a ledger with these records of a contestant on the folders after the first
ones. -/
def StandsAt (c : Campaign) (files : FileTree) (count n : Nat) (before : List Contestant)
    (contestant : Contestant) (first : List (String × List PathName)) (after : Ledger)
    (w : Workbench) (records : List (String × FolderStatistics)) : Prop :=
  Standing files (c.Known files c.contestants) count n w
    (c.ledgerAt files before contestant first after records)

/-- A contestant gets through the folders on their course, whatever part of its records is there. -/
structure KeepsCourse (c : Campaign) (files : FileTree) (count n : Nat) (before : List Contestant)
    (contestant : Contestant) (first rest : List (String × List PathName))
    (records : List (String × FolderStatistics)) (after : Ledger) (w : Workbench)
    (run : Reached Fault Workbench) : Prop where
  follows : Follows (c.StandsAt files count n before contestant first after) run
    (c.foldersCourse files contestant rest)
  saved : (c.foldersCourse files contestant rest).fault = none →
    (Saved w (c.ledgerAt files before contestant first after records) ∨
      ¬c.Complete files contestant rest records) →
    Saved run.value (c.ledgerAt files before contestant first after
      (c.foldersCourse files contestant rest).value)
  attempts : c.Complete files contestant rest records → run.value.attempts = w.attempts

/-- The course of the folders ends at the first folder with a fault. -/
theorem foldersCourse_of_some {fault : Misuse}
    (h : (c.folderCourse files contestant group).fault = some fault) :
    c.foldersCourse files contestant (group :: rest) =
      .stopped [(group.1, (c.folderCourse files contestant group).value)] fault :=
  gather_cons_of_some h

theorem foldersCourse_of_none (h : (c.folderCourse files contestant group).fault = none) :
    c.foldersCourse files contestant (group :: rest) =
      { value := (group.1, (c.folderCourse files contestant group).value) ::
          (c.foldersCourse files contestant rest).value,
        fault := (c.foldersCourse files contestant rest).fault } :=
  gather_cons_of_none h

/-- A folder that is done comes before the others. -/
theorem KeepsCourse.cons {w₁ : Workbench} {run : Reached Fault Workbench}
    {more : List (String × FolderStatistics)}
    (h : c.KeepsCourse files count n before contestant (first ++ [group]) rest more after w₁ run)
    (hDone : (c.folderCourse files contestant group).fault = none)
    (hSaved : Saved w (c.ledgerAt files before contestant first after records) ∨
        ¬c.Complete files contestant (group :: rest) records →
      Saved w₁ (c.ledgerAt files before contestant (first ++ [group]) after more) ∨
        ¬c.Complete files contestant rest more)
    (hAttempts : c.Complete files contestant (group :: rest) records →
      c.Complete files contestant rest more ∧ w₁.attempts = w.attempts) :
    c.KeepsCourse files count n before contestant first (group :: rest) records after w run where
  follows := by
    rw [foldersCourse_of_none hDone]
    refine ⟨?_, h.follows.fault⟩
    have hValue := h.follows.value
    rwa [StandsAt, ledgerAt_concat] at hValue
  saved := by
    rw [foldersCourse_of_none hDone]
    intro hCourse hStart
    have hLast := h.saved hCourse (hSaved hStart)
    rwa [ledgerAt_concat] at hLast
  attempts hComplete := by
    obtain ⟨hRest, hSame⟩ := hAttempts hComplete
    rw [h.attempts hRest, hSame]

/-- A record on the way is not the last one. -/
theorem not_complete_of_pending {i : Nat} {s : FolderStatistics}
    (hPending : FolderStatistics.Pending (c.outcomes files contestant group.1 group.2) i s)
    (hRecords : records = [(group.1, s)] ∨ records = [] ∧ s = .fresh) :
    ¬c.Complete files contestant (group :: rest) records := by
  rintro ⟨hAll, hFull⟩
  rw [Passes, List.forall_mem_cons] at hAll
  have hCompleted : (c.folderCourse files contestant group).value.completed = true :=
    (FolderStatistics.conclude_eq_done (Reached.eq_done hAll.1)).1
  rw [lastRecords, List.map_cons] at hFull
  rcases hRecords with hOne | ⟨hNone, -⟩
  · rw [hOne] at hFull
    simp only [List.cons.injEq, Prod.mk.injEq, true_and] at hFull
    rw [← hFull.1, hPending.completed_eq] at hCompleted
    cases hCompleted
  · rw [hNone] at hFull
    cases hFull

/-- One more folder is passed if its course has no fault. -/
theorem Passes.concat (hFirst : c.Passes files contestant first)
    (hDone : (c.folderCourse files contestant group).fault = none) :
    c.Passes files contestant (first ++ [group]) := by
  rw [Passes, List.forall_mem_append, List.forall_mem_singleton]
  exact ⟨hFirst, hDone⟩

include hRepeat hCount hShort hContestants hBefore

/-- A folder is run from a record on the way; the others follow unless it is stopped. -/
theorem visitFolders_open (hFirst : c.Passes files contestant first)
    (hGroups : c.groups = first ++ group :: rest) {i : Nat} {s : FolderStatistics}
    (hPending : FolderStatistics.Pending (c.outcomes files contestant group.1 group.2) i s)
    (hRecords : records = [(group.1, s)] ∨ records = [] ∧ s = .fresh)
    (hStanding : Standing files (c.Known files c.contestants) count n w
      (c.ledgerAt files before contestant first [] records))
    (hRest : ∀ {w₁ : Workbench}, c.Passes files contestant (first ++ [group]) →
      Standing files (c.Known files c.contestants) count n w₁
        (c.ledgerAt files before contestant (first ++ [group]) [] []) →
      c.KeepsCourse files count n before contestant (first ++ [group]) rest [] [] w₁
        (c.visitFolders (tableAt n) contestant w₁ rest)) :
    c.KeepsCourse files count n before contestant first (group :: rest) records [] w
      (c.visitFolders (tableAt n) contestant w (group :: rest)) := by
  have hNot : ¬c.Complete files contestant (group :: rest) records :=
    not_complete_of_pending hPending hRecords
  obtain ⟨hVisit, hSaved⟩ := visitFolder_open hRepeat hCount hShort hContestants hBefore hFirst
    hGroups hPending hRecords hStanding
  have hFault : (c.visitFolder (tableAt n) contestant group.1 group.2 w).fault =
      (c.folderCourse files contestant group).fault.map .misuse := hVisit.fault
  have hValue := hVisit.value
  rw [visitFolders]
  cases hCourse : (c.folderCourse files contestant group).fault with
  | some fault =>
      rw [hCourse] at hFault
      rw [Reached.bind_of_fault (by simp [hFault])]
      refine ⟨?_, ?_, fun hComplete => absurd hComplete hNot⟩
      · rw [foldersCourse_of_some hCourse]
        exact ⟨hValue, hFault⟩
      · rw [foldersCourse_of_some hCourse]
        exact nofun
  | none =>
      rw [hCourse] at hFault
      rw [Reached.bind_of_none hFault]
      have hStanding₁ : Standing files (c.Known files c.contestants) count n
          (c.visitFolder (tableAt n) contestant group.1 group.2 w).value
          (c.ledgerAt files before contestant (first ++ [group]) [] []) := by
        rw [ledgerAt_concat]
        exact hValue
      refine (hRest (hFirst.concat hCourse) hStanding₁).cons hCourse (fun _ => .inl ?_)
        fun hComplete => absurd hComplete hNot
      rw [ledgerAt_concat]
      exact hSaved hCourse

/-- The folders in turn: those that are completed are left alone, the next one is run from its
record, and the others are run from the start. -/
theorem visitFolders_eq (hFirst : c.Passes files contestant first)
    (hGroups : c.groups = first ++ rest) (hBegun : c.Begun files contestant rest records)
    (hOrder : c.Complete files contestant rest records ∨ after = [])
    (hStanding : Standing files (c.Known files c.contestants) count n w
      (c.ledgerAt files before contestant first after records)) :
    c.KeepsCourse files count n before contestant first rest records after w
      (c.visitFolders (tableAt n) contestant w rest) := by
  induction rest generalizing first records w with
  | nil =>
      cases hBegun
      refine ⟨.done hStanding, fun _ => ?_, fun _ => rfl⟩
      rintro (hSaved | hOther)
      · exact hSaved
      · exact absurd ⟨List.forall_mem_nil _, rfl⟩ hOther
  | cons group rest ih =>
      have hNext : c.groups = first ++ [group] ++ rest := by simp [hGroups]
      -- a folder that is not completed has nothing after it in the ledger
      have hOpen : ∀ i s,
          FolderStatistics.Pending (c.outcomes files contestant group.1 group.2) i s →
          (records = [(group.1, s)] ∨ records = [] ∧ s = .fresh) →
          c.KeepsCourse files count n before contestant first (group :: rest) records after w
            (c.visitFolders (tableAt n) contestant w (group :: rest)) := by
        intro i s hPending hRecords
        obtain rfl := hOrder.resolve_left (not_complete_of_pending hPending hRecords)
        exact visitFolders_open hRepeat hCount hShort hContestants hBefore hFirst hGroups hPending
          hRecords hStanding fun hPasses => ih hPasses hNext (.none rest) (.inr rfl)
      cases hBegun with
      | none => exact hOpen 0 .fresh .fresh (.inr ⟨rfl, rfl⟩)
      | pending rest h => exact hOpen _ _ h (.inl rfl)
      | @closed _ _ more hDone h =>
          have hComplete : c.Complete files contestant (group :: rest)
              ((group.1, (c.folderCourse files contestant group).value) :: more) ↔
                c.Complete files contestant rest more := by
            simp [Complete, Passes, lastRecords, hDone]
          rw [← ledgerAt_concat] at hStanding
          obtain ⟨w₁, hVisit, hStanding₁, hFiles, hAttempts⟩ := visitFolder_closed hRepeat
            hContestants hBefore hFirst hGroups hDone hStanding
          rw [hComplete] at hOrder
          rw [visitFolders, hVisit, Reached.done_bind]
          refine (ih (hFirst.concat hDone) hNext h hOrder hStanding₁).cons hDone ?_
            fun hFull => ⟨hComplete.1 hFull, hAttempts⟩
          rw [hComplete, ledgerAt_concat, Saved, Saved, hFiles]
          exact id

end Folders

/-! ### Contestants in turn -/

section Contestants

variable {count n : Nat} {w : Workbench} {contestant : Contestant}
  {before rest : List Contestant} {l : Ledger}

/-- All last records of all contestants are there. -/
def Finished (c : Campaign) (files : FileTree) (contestants : List Contestant) (l : Ledger) :
    Prop :=
  (∀ k ∈ contestants, c.Passes files k c.groups) ∧ l = c.fullLedger files contestants

/-- What is there for a contestant when its turn comes, and what is there for the later ones. -/
theorem runContestant_start (hRepeat : c.Repeatable files)
    (hContestants : c.contestants = before ++ contestant :: rest)
    (hKnown : c.Known files (contestant :: rest) l)
    (hStanding : Standing files (c.Known files c.contestants) count n w
      (c.fullLedger files before ++ l)) :
    ∃ (w' : Workbench) (records : List (String × FolderStatistics)) (more : Ledger),
      c.runContestant (tableAt n) contestant w =
        c.visitFolders (tableAt n) contestant w' c.groups ∧
      Standing files (c.Known files c.contestants) count n w'
        (c.ledgerAt files before contestant [] more records) ∧
      w'.files = w.files ∧ w'.attempts = w.attempts ∧
      c.Begun files contestant c.groups records ∧ c.Known files rest more ∧
      (c.Complete files contestant c.groups records ∨ more = []) ∧
      (l = [] ∧ records = [] ∧ more = [] ∨ l = (contestant.label, records) :: more) := by
  have hLabel : contestant.label ∉ (c.fullLedger files before).map Prod.fst := by
    have hLabels := hRepeat.labels
    rw [hContestants, List.map_append, List.nodup_append] at hLabels
    rw [map_fst_fullLedger]
    intro hMem
    exact hLabels.2.2 _ hMem _ (by simp) rfl
  let start (l : Ledger) : Workbench :=
    { w.printLine ("\n=== " ++ upperCase contestant.label ++ " ===") with
      statistics := l.statistics }
  cases hKnown with
  | none =>
      rw [List.append_nil] at hStanding
      refine ⟨start (c.ledgerAt files before contestant [] [] []), [], [], ?_,
        hStanding.change rfl rfl rfl ?_, rfl, rfl, .none _, .none _, .inr rfl,
        .inl ⟨rfl, rfl, rfl⟩⟩
      · simp only [runContestant, Workbench.printLine, hStanding.statistics,
          Ledger.withSolver_not_mem hLabel]
        rfl
      · simp [ledgerAt, lastRecords, Ledger.rows]
  | @begun _ _ records more hBegun hRest hOrder =>
      refine ⟨start (c.ledgerAt files before contestant [] more records), records, more, ?_,
        hStanding.change rfl rfl rfl rfl, rfl, rfl, hBegun, hRest, hOrder, .inr rfl⟩
      simp only [runContestant, Workbench.printLine, hStanding.statistics,
        Ledger.withSolver_mem hLabel]
      rfl

/-- The bench stands at a ledger of the contestants after the first ones. -/
def StandsAfter (c : Campaign) (files : FileTree) (count n : Nat) (before : List Contestant)
    (w : Workbench) (l : Ledger) : Prop :=
  Standing files (c.Known files c.contestants) count n w (c.fullLedger files before ++ l)

/-- The contestants complete the ledger on its course, whatever part of it is there. -/
structure KeepsLedger (c : Campaign) (files : FileTree) (count n : Nat)
    (before rest : List Contestant) (l : Ledger) (w : Workbench) (run : Reached Fault Workbench) :
    Prop where
  follows : Follows (c.StandsAfter files count n before) run (c.ledgerCourse files rest)
  saved : (c.ledgerCourse files rest).fault = none → c.groups ≠ [] →
    (Saved w (c.fullLedger files before ++ l) ∨ ¬c.Finished files rest l) →
    Saved run.value (c.fullLedger files before ++ (c.ledgerCourse files rest).value)
  attempts : c.groups = [] ∨ c.Finished files rest l → run.value.attempts = w.attempts

/-- Folders whose course has no fault are all passed, and each is left with the last record of its
own course. -/
theorem foldersCourse_eq_done {groups : List (String × List PathName)}
    (h : (c.foldersCourse files contestant groups).fault = none) :
    (c.foldersCourse files contestant groups).value = c.lastRecords files contestant groups ∧
      c.Passes files contestant groups :=
  gather_eq_done h

theorem foldersCourse_fault {groups : List (String × List PathName)}
    (h : c.Passes files contestant groups) :
    (c.foldersCourse files contestant groups).fault = none :=
  gather_fault h

/-- The course of the ledger ends at the first contestant with a fault. -/
theorem ledgerCourse_of_some {fault : Misuse}
    (h : (c.foldersCourse files contestant c.groups).fault = some fault) :
    c.ledgerCourse files (contestant :: rest) =
      .stopped [(contestant.label, (c.foldersCourse files contestant c.groups).value)] fault :=
  gather_cons_of_some h

theorem ledgerCourse_of_none (h : (c.foldersCourse files contestant c.groups).fault = none) :
    c.ledgerCourse files (contestant :: rest) =
      { value := (contestant.label, c.lastRecords files contestant c.groups) ::
          (c.ledgerCourse files rest).value,
        fault := (c.ledgerCourse files rest).fault } := by
  rw [← (foldersCourse_eq_done h).1]
  exact gather_cons_of_none h

/-- A course without a fault has finished the ledger: every contestant has passed every folder. -/
theorem ledgerCourse_eq_done {contestants : List Contestant}
    (h : (c.ledgerCourse files contestants).fault = none) :
    c.Finished files contestants (c.ledgerCourse files contestants).value := by
  obtain ⟨hValue, hAll⟩ := gather_eq_done h
  refine ⟨fun k hk => (foldersCourse_eq_done (hAll k hk)).2, hValue.trans ?_⟩
  exact List.map_congr_left fun k hk => by rw [(foldersCourse_eq_done (hAll k hk)).1]

/-- When a contestant has passed all folders, the ledger is the full one up to this contestant. -/
theorem ledgerAt_lastRecords (more : Ledger) :
    c.ledgerAt files before contestant [] more (c.lastRecords files contestant c.groups) =
      c.fullLedger files (before ++ [contestant]) ++ more := by
  simp [fullLedger, ledgerAt, lastRecords]

theorem fullLedger_cons (more : Ledger) :
    c.fullLedger files (before ++ [contestant]) ++ more =
      c.fullLedger files before ++
        (contestant.label, c.lastRecords files contestant c.groups) :: more := by
  simp [fullLedger]

/-- A contestant that does not get through all folders is the last one. -/
theorem KeepsLedger.stopped {run : Reached Fault Workbench} {fault : Misuse}
    (hCourse : (c.foldersCourse files contestant c.groups).fault = some fault)
    (hFollows : Follows (c.StandsAt files count n before contestant [] []) run
      (c.foldersCourse files contestant c.groups)) :
    c.KeepsLedger files count n before (contestant :: rest) l w run := by
  have hNot : ¬c.Passes files contestant c.groups := fun hPasses => by
    rw [foldersCourse_fault hPasses] at hCourse
    cases hCourse
  have hFault := hFollows.fault
  rw [hCourse] at hFault
  refine ⟨?_, ?_, ?_⟩
  · rw [ledgerCourse_of_some hCourse]
    exact ⟨hFollows.value, hFault⟩
  · rw [ledgerCourse_of_some hCourse]
    exact nofun
  · rintro (hGroups | hFinished)
    · refine absurd ?_ hNot
      rw [hGroups]
      exact List.forall_mem_nil _
    · exact absurd (hFinished.1 contestant List.mem_cons_self) hNot

/-- A contestant that gets through all folders comes before the others. -/
theorem KeepsLedger.cons {w₁ : Workbench} {run : Reached Fault Workbench} {more : Ledger}
    (h : c.KeepsLedger files count n (before ++ [contestant]) rest more w₁ run)
    (hDone : (c.foldersCourse files contestant c.groups).fault = none)
    (hSaved : c.groups ≠ [] →
      Saved w (c.fullLedger files before ++ l) ∨ ¬c.Finished files (contestant :: rest) l →
      Saved w₁ (c.fullLedger files (before ++ [contestant]) ++ more) ∨
        ¬c.Finished files rest more)
    (hAttempts : c.groups = [] ∨ c.Finished files (contestant :: rest) l →
      (c.groups = [] ∨ c.Finished files rest more) ∧ w₁.attempts = w.attempts) :
    c.KeepsLedger files count n before (contestant :: rest) l w run where
  follows := by
    rw [ledgerCourse_of_none hDone]
    refine ⟨?_, h.follows.fault⟩
    have hValue := h.follows.value
    rwa [StandsAfter, fullLedger_cons] at hValue
  saved := by
    rw [ledgerCourse_of_none hDone, ← fullLedger_cons]
    intro hCourse hGroups hStart
    exact h.saved hCourse hGroups (hSaved hGroups hStart)
  attempts hStart := by
    obtain ⟨hRest, hSame⟩ := hAttempts hStart
    rw [h.attempts hRest, hSame]

/-- The contestants in turn. -/
theorem runContestants_eq (hRepeat : c.Repeatable files) (hCount : n < count)
    (hShort : n < 10 ^ 239) (hBefore : ∀ k ∈ before, c.Passes files k c.groups)
    (hContestants : c.contestants = before ++ rest) (hKnown : c.Known files rest l)
    (hStanding : Standing files (c.Known files c.contestants) count n w
      (c.fullLedger files before ++ l)) :
    c.KeepsLedger files count n before rest l w (c.runContestants (tableAt n) w rest) := by
  induction rest generalizing before l w with
  | nil =>
      cases hKnown
      refine ⟨.done hStanding, fun _ _ => ?_, fun _ => rfl⟩
      rintro (hSaved | hOther)
      · exact hSaved
      · exact absurd ⟨List.forall_mem_nil _, rfl⟩ hOther
  | cons contestant rest ih =>
      obtain ⟨w₀, records, more, hRun, hStanding₀, hFiles, hAttempts, hBegun, hRest, hOrder,
          hLedger⟩ :=
        runContestant_start hRepeat hContestants hKnown hStanding
      have hVisits := visitFolders_eq hRepeat hCount hShort hContestants hBefore
        (List.forall_mem_nil _) (List.nil_append c.groups).symm hBegun hOrder hStanding₀
      have hFault := hVisits.follows.fault
      rw [runContestants, hRun]
      cases hCourse : (c.foldersCourse files contestant c.groups).fault with
      | some fault =>
          have hNot : ¬c.Complete files contestant c.groups records := fun hComplete => by
            rw [foldersCourse_fault hComplete.1] at hCourse
            cases hCourse
          obtain rfl := hOrder.resolve_left hNot
          rw [hCourse] at hFault
          rw [Reached.bind_of_fault (by simp [hFault])]
          exact .stopped hCourse hVisits.follows
      | none =>
          obtain ⟨hRecords, hPasses⟩ := foldersCourse_eq_done hCourse
          have hValue := hVisits.follows.value
          have hSaved := hVisits.saved hCourse
          rw [hCourse] at hFault
          rw [StandsAt, hRecords, ledgerAt_lastRecords] at hValue
          rw [hRecords, ledgerAt_lastRecords] at hSaved
          have hThrough : ∀ k ∈ before ++ [contestant], c.Passes files k c.groups := by
            rw [List.forall_mem_append, List.forall_mem_singleton]
            exact ⟨hBefore, hPasses⟩
          rw [Reached.bind_of_none hFault]
          refine (ih hThrough (by simp [hContestants]) hRest hValue).cons hCourse ?_ ?_
          · intro hGroups hStart
            by_cases hComplete : c.Complete files contestant c.groups records
            · rcases hLedger with ⟨-, rfl, -⟩ | rfl
              · exact absurd (List.map_eq_nil_iff.1 hComplete.2.symm) hGroups
              · rcases hStart with hOld | hOther
                · refine .inl (hSaved (.inl ?_))
                  rw [Saved, hFiles]
                  exact hOld
                · refine .inr fun hFinished => hOther
                    ⟨List.forall_mem_cons.2 ⟨hPasses, hFinished.1⟩, ?_⟩
                  rw [hComplete.2, hFinished.2]
                  rfl
            · exact .inl (hSaved (.inr hComplete))
          · rintro (hGroups | ⟨hAll, hFull⟩)
            · have hComplete : c.Complete files contestant c.groups records := by
                refine ⟨hPasses, ?_⟩
                rw [hGroups] at hBegun ⊢
                exact hBegun.eq_nil
              exact ⟨.inl hGroups, (hVisits.attempts hComplete).trans hAttempts⟩
            · rw [List.forall_mem_cons] at hAll
              rcases hLedger with ⟨rfl, -, -⟩ | rfl
              · cases hFull
              · rw [fullLedger, List.map_cons, List.cons.injEq, Prod.mk.injEq] at hFull
                exact ⟨.inr ⟨hAll.2, hFull.2⟩,
                  (hVisits.attempts ⟨hPasses, hFull.1.2⟩).trans hAttempts⟩

end Contestants

end Campaign

end Benchmark

end SatLab
