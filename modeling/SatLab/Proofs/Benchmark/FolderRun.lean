import SatLab.Proofs.Benchmark.Standing

/-! One solver on one folder. A run takes the record up where it is and deals with the outcomes that
are left. It ends with the record that the outcomes alone lead to, or is stopped where they lead to
a number that cannot be written. -/

namespace SatLab

namespace Benchmark

/-- A run on the bench that keeps to a course: what it reaches belongs to what the course reaches,
and the same fault stops both. -/
structure Follows {α β : Type} (R : α → β → Prop) (run : Reached Fault α)
    (course : Reached Misuse β) : Prop where
  value : R run.value course.value
  fault : run.fault = course.fault.map .misuse

namespace Follows

variable {α β : Type} {R : α → β → Prop} {run : Reached Fault α} {course : Reached Misuse β}

/-- A run and a course that both reach their end at related results follow each other. -/
theorem done {a : α} {b : β} (h : R a b) : Follows R (.done a) (.done b) := ⟨h, rfl⟩

/-- A run and a course stopped at the same fault in related states follow each other. -/
theorem stopped {a : α} {b : β} (h : R a b) (fault : Misuse) :
    Follows R (.stopped a (.misuse fault)) (.stopped b fault) := ⟨h, rfl⟩

/-- Following is kept by going on: it is enough that the second halves follow from every pair of
related ends of the first halves. -/
theorem bind (h : Follows R run course) {next : α → Reached Fault α} {after : β → Reached Misuse β}
    (hNext : ∀ a b, run = .done a → course = .done b → R a b → Follows R (next a) (after b)) :
    Follows R (run.bind next) (course.bind after) := by
  have hFault := h.fault
  cases hCourse : course.fault with
  | none =>
      rw [hCourse] at hFault
      rw [Reached.bind_of_none hFault, Reached.bind_of_none hCourse]
      exact hNext _ _ (Reached.eq_done hFault) (Reached.eq_done hCourse) h.value
  | some fault =>
      rw [hCourse] at hFault
      rw [Reached.bind_of_fault (by simp [hFault]), Reached.bind_of_fault (by simp [hCourse])]
      exact h

end Follows

namespace Campaign

/-- What an instance of a folder comes to; it is given with its number in the folder. -/
def outcome (c : Campaign) (files : FileTree) (contestant : Contestant) (folder : String)
    (member : PathName × Nat) : Outcome :=
  match Dimacs.ofFile files member.1.text with
  | .ok f =>
    (c.trial { solver := contestant.label, folder, place := member.2, number := 0 }).measure
      contestant.solver f Trial.timeLimit
  | .error fault => .error (.failed fault.message)

/-- What the instances of a folder come to. -/
def outcomes (c : Campaign) (files : FileTree) (contestant : Contestant) (folder : String)
    (members : List PathName) : List Outcome :=
  members.zipIdx.map (c.outcome files contestant folder)

/-- Every member of a folder has exactly one outcome in the folder's course. -/
theorem length_outcomes (c : Campaign) (files : FileTree) (contestant : Contestant)
    (folder : String) (members : List PathName) :
    (c.outcomes files contestant folder members).length = members.length := by
  simp [outcomes]

/-- Every attempt at an instance has the same outcome, the instances can be read, and there are no
results yet. -/
structure Repeatable (c : Campaign) (files : FileTree) : Prop where
  labels : (c.contestants.map Contestant.label).Nodup
  fixed : ∀ a b : Attempt, a.solver = b.solver → a.folder = b.folder → a.place = b.place →
    ∀ solver f,
      (c.trial a).measure solver f Trial.timeLimit = (c.trial b).measure solver f Trial.timeLimit
  readable : ∀ p ∈ c.paths, ∃ f, Dimacs.ofFile files p.text = .ok f
  noResults : NoResults files

/-- The outcome of an attempt is the one that is fixed for the instance. -/
theorem Repeatable.measure_eq {c : Campaign} {files t : FileTree} (h : c.Repeatable files)
    (hKeeps : files.Keeps t) {path : PathName} (hPath : path ∈ c.paths) (contestant : Contestant)
    (folder : String) (place number : Nat) :
    ∃ f, Dimacs.ofFile t path.text = .ok f ∧
      (c.trial { solver := contestant.label, folder, place, number }).measure contestant.solver f
        Trial.timeLimit = c.outcome files contestant folder (path, place) := by
  obtain ⟨f, hRead⟩ := h.readable path hPath
  refine ⟨f, hKeeps.ofFile hRead, ?_⟩
  simp only [outcome, hRead]
  exact h.fixed { solver := contestant.label, folder, place, number }
    { solver := contestant.label, folder, place, number := 0 } rfl rfl rfl contestant.solver f

end Campaign

/-- A contestant on a folder, and what comes before its record in the ledger. -/
structure Stage where
  before : Ledger
  contestant : Contestant
  first : List (String × FolderStatistics)
  folder : String
  members : List PathName

namespace Stage

/-- The ledger that ends with a record of this stage. -/
def ledger (p : Stage) (s : FolderStatistics) : Ledger :=
  p.before ++ [(p.contestant.label, p.first ++ [(p.folder, s)])]

def job (p : Stage) (c : Campaign) : FolderJob := c.job p.contestant p.folder p.members

def outcomes (p : Stage) (c : Campaign) (files : FileTree) : List Outcome :=
  c.outcomes files p.contestant p.folder p.members

/-- What the record of this stage comes to. -/
def course (p : Stage) (c : Campaign) (files : FileTree) : Reached Misuse FolderStatistics :=
  FolderStatistics.conclude (p.outcomes c files) p.contestant.label p.folder

/-- The rest of the ledger is in order, and so is the ledger with every record of this stage. -/
structure Ready (p : Stage) (c : Campaign) (files : FileTree) (Good : Ledger → Prop) : Prop where
  members : ∀ path ∈ p.members, path ∈ c.paths
  distinct : ∀ s, (p.ledger s).Distinct
  writable : ∀ s : FolderStatistics, s.Writable → (p.ledger s).Writable
  pending : ∀ i s, FolderStatistics.Pending (p.outcomes c files) i s → Good (p.ledger s)
  concluded : ∀ s, p.course c files = .done s → Good (p.ledger s)

theorem length_outcomes (p : Stage) (c : Campaign) (files : FileTree) :
    (p.outcomes c files).length = p.members.length :=
  c.length_outcomes files p.contestant p.folder p.members

/-- The rows of the ledger in the middle of a stage: those of the solvers before, of this solver's
folders before, and of the folder in hand. -/
theorem rows_ledger (p : Stage) (s : FolderStatistics) :
    (p.ledger s).rows = p.before.rows ++ p.first.flatMap (·.2.rows) ++ s.rows := by
  simp [ledger, Ledger.rows]

/-- The record in hand can be written whenever the whole ledger around it can. -/
theorem writable_of_ledger {p : Stage} {s : FolderStatistics} (h : (p.ledger s).Writable) :
    s.Writable :=
  h (p.contestant.label, p.first ++ [(p.folder, s)]) (by simp [ledger]) (p.folder, s) (by simp)

/-- In a ledger of distinct keys no solver before the stage has the label of the stage. -/
theorem label_not_mem {p : Stage} {s : FolderStatistics} (h : (p.ledger s).Distinct) :
    p.contestant.label ∉ p.before.map Prod.fst := by
  have hLabels := h.labels
  rw [ledger, List.map_append, List.nodup_append] at hLabels
  intro hMem
  exact hLabels.2.2 _ hMem _ (by simp) rfl

/-- In a ledger of distinct keys this solver has no earlier record under the folder in hand. -/
theorem folder_not_mem {p : Stage} {s : FolderStatistics} (h : (p.ledger s).Distinct) :
    p.folder ∉ p.first.map Prod.fst := by
  have hFolders := h.folders (p.contestant.label, p.first ++ [(p.folder, s)]) (by simp [ledger])
  rw [List.map_append, List.nodup_append] at hFolders
  intro hMem
  exact hFolders.2.2 _ hMem _ (by simp) rfl

/-- A record takes the place of another one. -/
theorem putFolder_ledger {p : Stage} {old : FolderStatistics} (h : (p.ledger old).Distinct)
    (s : FolderStatistics) :
    (p.ledger old).statistics.putFolder p.contestant.label p.folder (.recorded s) =
      (p.ledger s).statistics := by
  rw [ledger, Ledger.putFolder_eq (label_not_mem h) (folder_not_mem h)]
  simp [Document.putField, ledger]

end Stage

/-- A whole number of the backup equals a computed whole number exactly when the two are the same
integer. -/
theorem isValue_int (k total : Int) :
    (Document.int k).isValue (.whole total) = decide (k = total) := by
  have hUnits : 0 < Binary64.unitsPerOne := by
    unfold Binary64.unitsPerOne
    apply Nat.pow_pos
    decide
  have hScale : (Binary64.unitsPerOne : Int) ≠ 0 := Int.natCast_ne_zero.2 (Nat.ne_of_gt hUnits)
  simp only [Document.int, Document.isValue, Document.number?, Number.equal, Number.place,
    Prod.mk.injEq, true_and, Int.mul_eq_mul_right_iff hScale]

/-- An outcome is taken into the record; its note has the count of the outcome. -/
theorem takeOutcome_recorded (s : FolderStatistics) (o : Outcome) :
    ∃ note : Note, takeOutcome (.recorded s) o = (.done (.recorded (s.takeIn o)), note) ∧
      (Number.whole note.decisions).hasTooManyDigits = o.tooLong := by
  have hZero : (Number.whole 0).hasTooManyDigits = false :=
    FolderStatistics.writable_fresh.decisions
  rcases o with (seconds | reason) | m
  · exact ⟨_, rfl, hZero⟩
  · exact ⟨_, rfl, hZero⟩
  · exact ⟨_, rfl, rfl⟩

/-- A progress line is refused only for a decision count with too many digits; everything else in it
can be printed. -/
theorem Note.line_eq (note : Note) (folder name timeouts : String) :
    ∃ text, note.line folder name (.ok timeouts) =
      if (Number.whole note.decisions).hasTooManyDigits then .error .tooManyDigits
      else .ok text := by
  rw [Note.line, Number.shown?]
  cases (Number.whole note.decisions).hasTooManyDigits with
  | false => exact ⟨_, rfl⟩
  | true => exact ⟨"", rfl⟩

/-- Dropping from a numbered list leaves the rest of it, numbered from the place of the cut. -/
theorem drop_zipIdx {α : Type} {xs : List α} {i : Nat} (hLe : i ≤ xs.length) :
    xs.zipIdx.drop i = (xs.drop i).zipIdx i := by
  have hLength : (xs.take i).zipIdx.length = i := by simpa using hLe
  have hStart : 0 + (xs.take i).length = i := by simpa using hLe
  rw [← List.take_append_drop i xs, List.zipIdx_append, List.drop_left' hLength, hStart,
    List.take_append_drop]

namespace FolderJob

variable (job : FolderJob) (s : FolderStatistics) (w : Workbench)

/-- The attempt that comes next. -/
def nextAttempt : Attempt :=
  { solver := job.contestant.label, folder := job.folder, place := s.completedTests,
    number := w.attempts.length }

/-- What the next attempt comes to if the instance is this formula. -/
def nextOutcome (f : Formula) : Outcome :=
  (job.trial (job.nextAttempt s w)).measure job.contestant.solver f Trial.timeLimit

/-- The bench with the next attempt made. -/
def attempted : Workbench := { w with attempts := job.nextAttempt s w :: w.attempts }

/-- The instances from a place on, each with its index and its place. -/
def fromPlace (i : Nat) : List (Int × Nat × PathName) :=
  ((job.instances.drop i).zipIdx i).map fun member => ((member.2 : Int), member.2, member.1)

variable {job s w} {state : FolderState} (hRecord : state.record = .recorded s)

/-- What remains after `i` completed tests are the instances from place `i` on. -/
theorem remaining_natCast (i : Nat) : job.remaining i = .ok (job.fromPlace i) := by
  rw [remaining, if_pos (Int.natCast_nonneg _), Int.toNat_natCast, ← List.map_drop, fromPlace]
  rcases Nat.le_total i job.instances.length with hLe | hGe
  · rw [drop_zipIdx hLe]
  · rw [List.drop_eq_nil_of_le hGe, List.drop_eq_nil_of_le (by simpa using hGe), List.zipIdx_nil]

include hRecord

/-- A record whose instances are all counted is left as it is. -/
theorem adjust_counted : adjust state (.whole s.completedTests) = .ok state := by
  simp only [adjust, hRecord, FolderRecord.completedTests, bind, Except.bind, isValue_int,
    decide_true]
  rfl

/-- A run goes through the instances without outcome. -/
theorem run_recorded (hCounted : s.outcomes = s.completedTests) :
    job.run state = job.goThrough state (job.fromPlace s.completedTests) := by
  simp only [run, hRecord, FolderRecord.outcomes, hCounted, adjust_counted hRecord,
    remaining_natCast]

/-- The outcome of an instance that can be read is taken in, printed and saved. -/
theorem tryInstance_recorded (job : FolderJob) {path : PathName} {f : Formula}
    (hRead : Dimacs.ofFile state.bench.files path.text = .ok f) :
    ∃ line, job.tryInstance state s.completedTests s.completedTests path =
      if (job.nextOutcome s state.bench f).tooLong then
        .stopped { record := .recorded (s.deal (job.nextOutcome s state.bench f)),
                   bench := job.attempted s state.bench } (.misuse .tooManyDigits)
      else
        job.save { record := .recorded (s.deal (job.nextOutcome s state.bench f)),
                   bench := (job.attempted s state.bench).printLine line } := by
  obtain ⟨note, hTaken, hNote⟩ := takeOutcome_recorded s (job.nextOutcome s state.bench f)
  obtain ⟨line, hLine⟩ := Note.line_eq note job.folder path.name
    (toString (s.deal (job.nextOutcome s state.bench f)).consecutiveTimeouts)
  have hCount : ∀ o, (FolderRecord.recorded (s.takeIn o)).setCompletedTests
      ((s.completedTests : Int) + 1) = .recorded (s.deal o) := by
    intro o
    have hPos : (0 : Int) ≤ (s.completedTests : Int) + 1 := by omega
    rw [FolderRecord.setCompletedTests, if_pos hPos]
    rfl
  rw [hNote] at hLine
  rw [nextOutcome, nextAttempt] at hTaken
  refine ⟨line, ?_⟩
  simp only [tryInstance, hRead, hRecord, hTaken, Reached.done]
  rw [← nextAttempt, ← nextOutcome, hCount]
  simp only [FolderRecord.consecutiveTimeouts, hLine]
  cases (job.nextOutcome s state.bench f).tooLong <;> rfl

/-- The instances that a record does not count are given up. -/
theorem skipFrom_recorded (job : FolderJob) (hLe : s.completedTests ≤ job.instances.length) :
    ∃ line, job.skipFrom state s.completedTests =
      .done { record := .recorded (s.giveUp (job.instances.length - s.completedTests)),
              bench := state.bench.printLine line } := by
  have hLeft : ((job.instances.length : Int) - s.completedTests).toNat =
      job.instances.length - s.completedTests := by omega
  have hCount : ∀ left, s.completedTests + left = job.instances.length →
      (FolderRecord.recorded (s.skip left)).setCompletedTests job.instances.length =
        .recorded (s.giveUp left) := by
    intro left hSum
    rw [FolderRecord.setCompletedTests, if_pos (Int.natCast_nonneg _), Int.toNat_natCast,
      FolderStatistics.giveUp, hSum]
  rw [skipFrom, hRecord]
  simp only [FolderRecord.skip, hLeft, hCount _ (Nat.add_sub_cancel' hLe)]
  exact ⟨_, rfl⟩

/-- Below the timeout limit the loop tries the instance it stands at and goes on with the rest. -/
theorem goThrough_live (hLive : s.consecutiveTimeouts < FolderStatistics.timeoutLimit)
    (index : Int) (place : Nat) (path : PathName) (rest : List (Int × Nat × PathName)) :
    job.goThrough state ((index, place, path) :: rest) =
      (job.tryInstance state index place path).bind fun next => job.goThrough next rest := by
  have hGoOn : (FolderRecord.recorded s).hasTimedOut = .ok false := by
    rw [FolderRecord.hasTimedOut, decide_eq_false (Nat.not_le.2 hLive)]
  rw [goThrough, hRecord, hGoOn]
  simp only
  cases hFault : (job.tryInstance state index place path).fault with
  | none => rw [Reached.bind_of_none hFault]
  | some fault => rw [Reached.bind_of_fault (by simp [hFault])]

/-- At the timeout limit the loop attempts nothing more and skips from the index it stands at. -/
theorem goThrough_timedOut (hMany : FolderStatistics.timeoutLimit ≤ s.consecutiveTimeouts)
    (index : Int) (place : Nat) (path : PathName) (rest : List (Int × Nat × PathName)) :
    job.goThrough state ((index, place, path) :: rest) = job.skipFrom state index := by
  rw [goThrough, hRecord, FolderRecord.hasTimedOut, decide_eq_true hMany]

end FolderJob

/-- A record that is worked on, while the bench stands at a record of the same stage. -/
structure Held (files : FileTree) (Good : Ledger → Prop) (count n : Nat) (p : Stage)
    (state : FolderState) (s : FolderStatistics) : Prop where
  record : state.record = .recorded s
  bench : ∃ old : FolderStatistics, old.rows = [] ∧
    Standing files Good count n state.bench (p.ledger old)

section Run

variable {c : Campaign} {files : FileTree} {Good : Ledger → Prop} {count n : Nat} {p : Stage}
  {state : FolderState} {s : FolderStatistics} {i : Nat}

/-- The record that is worked on is put into the statistics. -/
theorem Held.publish (h : Held files Good count n p state s) (hReady : p.Ready c files Good)
    (hRows : s.rows = []) :
    Standing files Good count n
      { state.bench with
        statistics := Benchmark.publish p.contestant.label p.folder state.bench.statistics
          state.record }
      (p.ledger s) := by
  obtain ⟨old, hOld, hStanding⟩ := h.bench
  refine hStanding.change rfl rfl ?_ ?_
  · rw [Benchmark.publish, h.record, hStanding.statistics,
      Stage.putFolder_ledger (hReady.distinct old)]
  · rw [Stage.rows_ledger, Stage.rows_ledger, hRows, hOld]

/-- The record is saved if it can be written. -/
theorem Held.save (h : Held files Good count n p state s) (hRepeat : c.Repeatable files)
    (hReady : p.Ready c files Good) (hGood : s.Writable → Good (p.ledger s)) (hRows : s.rows = []) :
    Follows (Held files Good count n p) ((p.job c).save state) s.settle := by
  have hStanding := h.publish hReady hRows
  rcases hStanding.save hRepeat.noResults (fun hLedger => hGood (Stage.writable_of_ledger hLedger))
    (hReady.distinct s) with ⟨hWritable, w, hSave, hNext, -⟩ | ⟨hWritable, w, hSave, hNext⟩
  · have hRecord := Stage.writable_of_ledger hWritable
    simp only [FolderJob.save, Stage.job, Campaign.job, hSave,
      FolderStatistics.settle_of_writable hRecord]
    exact .done ⟨h.record, s, hRows, hNext⟩
  · have hRecord : ¬s.Writable := fun hRecord => hWritable (hReady.writable s hRecord)
    simp only [FolderJob.save, Stage.job, Campaign.job, hSave,
      FolderStatistics.settle_of_not_writable hRecord]
    exact .stopped ⟨h.record, s, hRows, hNext⟩ .tooManyDigits

/-- An attempt takes in the outcome of the instance. -/
theorem Held.attempt (h : Held files Good count n p state s) (hRepeat : c.Repeatable files)
    (hReady : p.Ready c files Good)
    (hPending : FolderStatistics.Pending (p.outcomes c files) i s) {path : PathName}
    (hPath : path ∈ c.paths)
    (hOutcome : (p.outcomes c files)[i]? =
      some (c.outcome files p.contestant p.folder (path, i)))
    (hLive : s.consecutiveTimeouts < FolderStatistics.timeoutLimit) :
    Follows (Held files Good count n p) ((p.job c).tryInstance state i i path)
      (s.advance (c.outcome files p.contestant p.folder (path, i))) := by
  obtain ⟨old, hOld, hStanding⟩ := h.bench
  obtain ⟨f, hRead, hMeasure⟩ := hRepeat.measure_eq hStanding.current.keeps hPath p.contestant
    p.folder i state.bench.attempts.length
  generalize c.outcome files p.contestant p.folder (path, i) = o at hMeasure hOutcome ⊢
  obtain rfl := hPending.completedTests_eq
  have hNext : (p.job c).nextOutcome s state.bench f = o := hMeasure
  obtain ⟨line, hTried⟩ := FolderJob.tryInstance_recorded h.record (p.job c) hRead
  have hRows : (s.deal o).rows = [] := by rw [FolderStatistics.deal_rows, hPending.rows_eq]
  have hHeld : ∀ bench : Workbench, bench.files = state.bench.files →
      bench.history = state.bench.history → bench.statistics = state.bench.statistics →
      Held files Good count n p { record := .recorded (s.deal o), bench } (s.deal o) :=
    fun bench hFiles hHistory hStatistics => ⟨rfl, old, hOld,
      hStanding.change hFiles hHistory (hStatistics.trans hStanding.statistics) rfl⟩
  rw [hTried, hNext]
  cases hLong : o.tooLong with
  | true =>
      rw [FolderStatistics.advance, if_pos hLong, if_pos rfl]
      refine .stopped (hHeld _ ?_ ?_ ?_) .tooManyDigits <;> rfl
  | false =>
      have hAdvance : s.advance o = (s.deal o).settle := by
        rw [FolderStatistics.advance, if_neg (by simp [hLong])]
      rw [hAdvance, if_neg Bool.false_ne_true]
      refine (hHeld _ ?_ ?_ ?_).save hRepeat hReady (fun hWritable => ?_) hRows
      iterate 3 rfl
      rw [FolderStatistics.settle_of_writable hWritable] at hAdvance
      exact hReady.pending _ _ (hPending.advance hOutcome hLive hAdvance)

/-- The instances that are left are given up. -/
theorem Held.skip (h : Held files Good count n p state s) (hCompleted : s.completedTests = i)
    {left : Nat} (hLeft : p.members.length = i + left) :
    Follows (Held files Good count n p) ((p.job c).skipFrom state i) (.done (s.giveUp left)) := by
  obtain ⟨old, hOld, hStanding⟩ := h.bench
  subst hCompleted
  obtain ⟨line, hSkip⟩ := FolderJob.skipFrom_recorded h.record (p.job c) (by
    rw [Stage.job, Campaign.job, hLeft]
    exact Nat.le_add_right _ _)
  have hCount : (p.job c).instances.length - s.completedTests = left := by
    rw [Stage.job, Campaign.job, hLeft, Nat.add_sub_cancel_left]
  rw [hSkip, hCount]
  exact .done ⟨rfl, old, hOld, hStanding.change rfl rfl hStanding.statistics rfl⟩

/-- The instances that are left are gone through. -/
theorem Held.goThrough (h : Held files Good count n p state s) (hRepeat : c.Repeatable files)
    (hReady : p.Ready c files Good)
    (hPending : FolderStatistics.Pending (p.outcomes c files) i s) {rest : List PathName}
    (hPaths : ∀ path ∈ rest, path ∈ c.paths)
    (hRest : (p.outcomes c files).drop i =
      (rest.zipIdx i).map (c.outcome files p.contestant p.folder)) :
    Follows (Held files Good count n p)
      ((p.job c).goThrough state
        ((rest.zipIdx i).map fun member => ((member.2 : Int), member.2, member.1)))
      (s.play ((p.outcomes c files).drop i)) := by
  induction rest generalizing i s state with
  | nil =>
      rw [hRest]
      exact .done h
  | cons path rest ih =>
      rw [List.forall_mem_cons] at hPaths
      rw [List.zipIdx_cons, List.map_cons] at hRest
      rw [hRest, List.zipIdx_cons, List.map_cons, FolderStatistics.play]
      by_cases hLive : s.consecutiveTimeouts < FolderStatistics.timeoutLimit
      · have hTail : (p.outcomes c files).drop (i + 1) =
            (rest.zipIdx (i + 1)).map (c.outcome files p.contestant p.folder) := by
          rw [← List.tail_drop, hRest, List.tail_cons]
        have hOutcome : (p.outcomes c files)[i]? =
            some (c.outcome files p.contestant p.folder (path, i)) := by
          rw [← List.head?_drop, hRest, List.head?_cons]
        rw [if_neg (Nat.not_le.2 hLive), FolderJob.goThrough_live h.record hLive, ← hTail]
        refine (h.attempt hRepeat hReady hPending hPaths.1 hOutcome hLive).bind
          fun next s' _ hNext hHeld => ?_
        exact ih hHeld (hPending.advance hOutcome hLive hNext) hPaths.2 hTail
      · have hLeft : p.members.length = i + (rest.length + 1) := by
          have hLength := congrArg List.length hRest
          have hLe := hPending.le_length
          rw [Stage.length_outcomes] at hLe
          rw [List.length_drop, Stage.length_outcomes, List.length_cons, List.length_map,
            List.length_zipIdx] at hLength
          omega
        have hMany : FolderStatistics.timeoutLimit ≤ s.consecutiveTimeouts := Nat.le_of_not_lt hLive
        rw [if_pos hMany, FolderJob.goThrough_timedOut h.record hMany, List.length_map,
          List.length_zipIdx]
        exact h.skip hPending.completedTests_eq hLeft

/-- A run on the folder goes on where the record is. -/
theorem Held.run (h : Held files Good count n p state s) (hRepeat : c.Repeatable files)
    (hReady : p.Ready c files Good)
    (hPending : FolderStatistics.Pending (p.outcomes c files) i s) :
    Follows (Held files Good count n p) ((p.job c).run state)
      (FolderStatistics.fresh.play (p.outcomes c files)) := by
  have hLe := hPending.le_length
  rw [Stage.length_outcomes] at hLe
  have hRest : (p.outcomes c files).drop i =
      ((p.members.drop i).zipIdx i).map (c.outcome files p.contestant p.folder) := by
    rw [Stage.outcomes, Campaign.outcomes, ← List.map_drop, drop_zipIdx hLe]
  have hCounted : s.outcomes = s.completedTests := by
    rw [hPending.outcomes_eq, hPending.completedTests_eq]
  rw [FolderJob.run_recorded h.record hCounted, hPending.completedTests_eq, ← hPending.play_drop]
  exact h.goThrough hRepeat hReady hPending
    (fun path hPath => hReady.members path (List.mem_of_mem_drop hPath)) hRest

/-- A record written by the program says that a folder is through exactly when its completed tests
equal the folder's size. -/
theorem hasCompleted_recorded (s : FolderStatistics) (total : Nat) :
    (FolderRecord.recorded s).hasCompleted total = .ok (decide (s.completedTests = total)) := by
  have hValue := isValue_int s.completedTests total
  rw [show decide ((s.completedTests : Int) = total) = decide (s.completedTests = total) from
    decide_eq_decide.2 Int.natCast_inj] at hValue
  rw [FolderRecord.hasCompleted, FolderRecord.completedTests]
  exact congrArg Except.ok hValue

/-- A folder whose tests are all completed is closed by summarising its record. -/
theorem closeFolder_summarize {w : Workbench} {total : Nat} (hCompleted : s.completedTests = total)
    (table label folder : String) :
    Campaign.closeFolder table label folder total { record := .recorded s, bench := w } =
      (summarize w table label folder total (.recorded { s with completed := true })).bind
        Workbench.save := by
  have hAll : (FolderRecord.recorded s).hasCompleted total = .ok true := by
    rw [hasCompleted_recorded, decide_eq_true hCompleted]
  rw [Campaign.closeFolder, hAll, FolderRecord.setCompleted]

/-- A folder stays open while the count of its instances is another one. -/
theorem closeFolder_open {w : Workbench} {total : Nat} (hCompleted : s.completedTests ≠ total)
    (table label folder : String) :
    Campaign.closeFolder table label folder total { record := .recorded s, bench := w } =
      .done w := by
  have hOpen : (FolderRecord.recorded s).hasCompleted total = .ok false := by
    rw [hasCompleted_recorded, decide_eq_false hCompleted]
  rw [Campaign.closeFolder, hOpen]

/-- The bench stands at a record of the stage. -/
def Stage.StandsAt (p : Stage) (files : FileTree) (Good : Ledger → Prop) (count n : Nat)
    (w : Workbench) (s : FolderStatistics) : Prop :=
  Standing files Good count n w (p.ledger s)

section Close

variable {w : Workbench} (hStanding : Standing files Good count n w (p.ledger s))
  (hReady : p.Ready c files Good) (hCount : n < count) (hShort : n < 10 ^ 239)
  (hRepeat : c.Repeatable files)

include hStanding hReady hCount hShort hRepeat

/-- The summary of a folder is added to its record and to the table. -/
theorem summarize_eq :
    Follows (p.StandsAt files Good count n)
      (summarize w (tableAt n) p.contestant.label p.folder p.members.length
        (.recorded { s with completed := true }))
      (s.addSummary p.contestant.label p.folder p.members.length) := by
  have hPut : ∀ s', publish p.contestant.label p.folder w.statistics (.recorded s') =
      (p.ledger s').statistics := fun s' => by
    rw [publish, hStanding.statistics, Stage.putFolder_ledger (hReady.distinct s)]
  have hKept : p.StandsAt files Good count n
      { w with statistics := (p.ledger { s with completed := true }).statistics }
      { s with completed := true } :=
    hStanding.change rfl rfl rfl (by simp [Stage.rows_ledger])
  have hRow : ({ s with completed := true } : FolderStatistics).summaryRow p.contestant.label
      p.folder p.members.length = s.summaryRow p.contestant.label p.folder p.members.length := rfl
  rw [FolderStatistics.addSummary]
  cases hTimes : s.times.isEmpty with
  | true =>
      simp only [summarize, FolderRecord.hasTimes, hTimes, Bool.not_true, hPut, if_true]
      exact .done hKept
  | false =>
      simp only [summarize, FolderRecord.hasTimes, hTimes, Bool.not_false, FolderRecord.summarize,
        hRow, hPut, Bool.false_eq_true, if_false]
      cases hSummary : s.summaryRow p.contestant.label p.folder p.members.length with
      | error fault =>
          simp only [bind, Except.bind]
          exact .stopped hKept fault
      | ok row =>
          simp only [bind, Except.bind, pure, Except.pure]
          by_cases hLine : FolderStatistics.Short row.inconclusive ∧
              FolderStatistics.Short row.failed
          · have hRows : (p.ledger { s with completed := true, rows := s.rows ++ [row] }).rows =
                (p.ledger s).rows ++ [row] := by simp [Stage.rows_ledger]
            have hAppend := hStanding.append hShort row.line
            rw [← tableText_concat, ← hRows] at hAppend
            rw [if_neg (by simp [(FolderStatistics.hasTooManyDigits_row row).2 hLine]),
              SummaryRow.rowText_cells hLine.1 hLine.2]
            simp only [Except.mapError, hAppend]
            refine .done ?_
            have hNext := standing_store (w := w)
              (l := p.ledger { s with completed := true, rows := s.rows ++ [row] })
              hRepeat.noResults hCount hStanding.leftover hStanding.folder
            rwa [← hPut] at hNext
          · have hLong : row.toDocument.hasTooManyDigits = true := by
              rwa [← Bool.not_eq_false, FolderStatistics.hasTooManyDigits_row]
            rw [if_pos hLong, SummaryRow.rowText_long hLine]
            exact .stopped hKept .tooManyDigits

omit hStanding hCount hShort in
/-- The last record is saved if it can be written. -/
theorem save_last (hStands : p.StandsAt files Good count n w s)
    (hGood : s.Writable → p.course c files = .done s) :
    Follows (p.StandsAt files Good count n) w.save s.settle ∧
      (s.settle.fault = none → Saved w.save.value (p.ledger s)) := by
  rcases hStands.save hRepeat.noResults
    (fun hLedger => hReady.concluded s (hGood (Stage.writable_of_ledger hLedger)))
    (hReady.distinct s) with ⟨hWritable, w', hSave, hNext, hSaved⟩ | ⟨hWritable, w', hSave, hNext⟩
  · rw [hSave, FolderStatistics.settle_of_writable (Stage.writable_of_ledger hWritable)]
    exact ⟨.done hNext, fun _ => hSaved⟩
  · have hRecord : ¬s.Writable := fun hRecord => hWritable (hReady.writable s hRecord)
    have hStands' : p.StandsAt files Good count n w' s := hNext
    rw [hSave, FolderStatistics.settle_of_not_writable hRecord]
    exact ⟨.stopped hStands' .tooManyDigits, nofun⟩

/-- A folder that is dealt with is closed. -/
theorem closeFolder_eq (hCompleted : s.completedTests = p.members.length)
    (hCourse : p.course c files = s.close p.contestant.label p.folder p.members.length) :
    let run := Campaign.closeFolder (tableAt n) p.contestant.label p.folder p.members.length
      { record := .recorded s, bench := w }
    Follows (p.StandsAt files Good count n) run (p.course c files) ∧
      ((p.course c files).fault = none → Saved run.value (p.ledger (p.course c files).value)) := by
  have hSummary := summarize_eq hStanding hReady hCount hShort hRepeat
  have hFault := hSummary.fault
  simp only [closeFolder_summarize hCompleted]
  rw [FolderStatistics.close] at hCourse
  cases hAdd : (s.addSummary p.contestant.label p.folder p.members.length).fault with
  | some fault =>
      rw [hAdd] at hFault
      rw [Reached.bind_of_fault (by simp [hAdd])] at hCourse
      rw [Reached.bind_of_fault (by simp [hFault]), hCourse, hAdd]
      exact ⟨hSummary, nofun⟩
  | none =>
      rw [hAdd] at hFault
      rw [Reached.bind_of_none hAdd] at hCourse
      have hLast := save_last hReady hRepeat hSummary.value fun hWritable => by
        rw [hCourse, FolderStatistics.settle_of_writable hWritable]
      rw [Reached.bind_of_none hFault, hCourse, FolderStatistics.settle_value]
      exact hLast

omit hStanding in
/-- What is done once the instances of a folder are gone through. -/
theorem endFolder_eq {run : Reached Fault FolderState}
    (hRun : Follows (Held files Good count n p) run
      (FolderStatistics.fresh.play (p.outcomes c files))) :
    let ended := Campaign.endFolder (tableAt n) p.contestant.label p.folder p.members.length run
    Follows (p.StandsAt files Good count n) ended (p.course c files) ∧
      ((p.course c files).fault = none → Saved ended.value (p.ledger (p.course c files).value)) := by
  have hRows : (FolderStatistics.fresh.play (p.outcomes c files)).value.rows = [] :=
    FolderStatistics.play_rows _ _
  have hStanding := hRun.value.publish hReady hRows
  have hFault := hRun.fault
  have hRecord := hRun.value.record
  have hCourse : p.course c files = (FolderStatistics.fresh.play (p.outcomes c files)).bind
      fun s => s.close p.contestant.label p.folder p.members.length := by
    rw [Stage.course, FolderStatistics.conclude, Stage.length_outcomes]
  cases hPlay : (FolderStatistics.fresh.play (p.outcomes c files)).fault with
  | none =>
      have hCompleted : (FolderStatistics.fresh.play (p.outcomes c files)).value.completedTests =
          p.members.length := by
        rw [FolderStatistics.play_completedTests (Reached.eq_done hPlay), Stage.length_outcomes]
        exact Nat.zero_add _
      rw [hPlay] at hFault
      rw [Reached.bind_of_none hPlay] at hCourse
      have hClose := closeFolder_eq hStanding hReady hCount hShort hRepeat hCompleted hCourse
      rw [← hRecord] at hClose
      simp only [Campaign.endFolder, hFault]
      exact hClose
  | some fault =>
      rw [hPlay] at hFault
      rw [Reached.bind_of_fault (by simp [hPlay])] at hCourse
      simp only [Campaign.endFolder, hFault, hCourse, hPlay]
      exact ⟨⟨hStanding, by rw [hPlay]; rfl⟩, nofun⟩

/-- A run on a folder keeps to the course of the folder, from every record on the way. -/
theorem runFolder_eq (hPending : FolderStatistics.Pending (p.outcomes c files) i s) :
    let run := c.runFolder (tableAt n) p.contestant p.folder p.members (.recorded s) w
    Follows (p.StandsAt files Good count n) run (p.course c files) ∧
      ((p.course c files).fault = none → Saved run.value (p.ledger (p.course c files).value)) := by
  have hHeld : Held files Good count n p { record := .recorded s, bench := w } s :=
    ⟨rfl, s, hPending.rows_eq, hStanding⟩
  exact endFolder_eq hReady hCount hShort hRepeat (hHeld.run hRepeat hReady hPending)

end Close

end Run

end Benchmark

end SatLab
