import SatLab.Benchmark.Reached
import SatLab.Proofs.Benchmark.Backup
import SatLab.Proofs.Fallible

/-! What becomes of the record of a folder while the outcomes of its instances come in, whether in
one run or in several: every record on the way ends as the same one. -/

namespace SatLab

/-- How a trial ends. -/
abbrev Outcome := Except TrialFault Measurement

/-- Whether an outcome has a count that is too long to be printed. -/
def Outcome.tooLong : Outcome → Bool
  | .ok m => (Number.whole m.count).hasTooManyDigits
  | .error _ => false

namespace FolderStatistics

/-- One more outcome is taken into the record. -/
def takeIn (s : FolderStatistics) : Outcome → FolderStatistics
  | .ok m => s.succeed m
  | .error (.timeout _) => s.timeOut
  | .error (.failed _) => s.fail

/-- One more instance is dealt with. -/
def deal (s : FolderStatistics) (o : Outcome) : FolderStatistics :=
  { s.takeIn o with completedTests := s.completedTests + 1 }

/-- The instances that are left are given up. -/
def giveUp (s : FolderStatistics) (left : Nat) : FolderStatistics :=
  { s.skip left with completedTests := s.completedTests + left }

/-- A record that is saved, if it can be written. -/
def settle (s : FolderStatistics) : Reached Misuse FolderStatistics :=
  if s.toDocument.hasTooManyDigits then .stopped s .tooManyDigits else .done s

/-- One more outcome is dealt with, printed and saved. -/
def advance (s : FolderStatistics) (o : Outcome) : Reached Misuse FolderStatistics :=
  if o.tooLong then .stopped (s.deal o) .tooManyDigits else (s.deal o).settle

/-- All outcomes that are left are dealt with, or given up after too many timeouts in a row. -/
def play (s : FolderStatistics) : List Outcome → Reached Misuse FolderStatistics
  | [] => .done s
  | o :: rest =>
    if timeoutLimit ≤ s.consecutiveTimeouts then .done (s.giveUp (rest.length + 1))
    else (s.advance o).bind fun next => next.play rest

/-- The record of a folder that is dealt with gets the summary, if there are times to summarize. -/
def addSummary (s : FolderStatistics) (solver folder : String) (total : Nat) :
    Reached Misuse FolderStatistics :=
  let whole := { s with completed := true }
  if s.times.isEmpty then .done whole
  else
    match s.summaryRow solver folder total with
    | .error fault => .stopped whole fault
    | .ok row =>
      if row.toDocument.hasTooManyDigits then .stopped whole .tooManyDigits
      else .done { whole with rows := s.rows ++ [row] }

def close (s : FolderStatistics) (solver folder : String) (total : Nat) :
    Reached Misuse FolderStatistics :=
  (s.addSummary solver folder total).bind settle

/-- What the record of a folder comes to. -/
def conclude (outcomes : List Outcome) (solver folder : String) : Reached Misuse FolderStatistics :=
  (fresh.play outcomes).bind fun s => s.close solver folder outcomes.length

/-- The records on the way through a list of outcomes, with the number of instances dealt with. -/
inductive Pending (outcomes : List Outcome) : Nat → FolderStatistics → Prop where
  | fresh : Pending outcomes 0 .fresh
  | advance {n : Nat} {s next : FolderStatistics} {o : Outcome} (h : Pending outcomes n s)
      (hOutcome : outcomes[n]? = some o) (hLive : s.consecutiveTimeouts < timeoutLimit)
      (hNext : s.advance o = .done next) : Pending outcomes (n + 1) next

/-- Every outcome is one more instance that is dealt with. -/
@[simp] theorem deal_completedTests (s : FolderStatistics) (o : Outcome) :
    (s.deal o).completedTests = s.completedTests + 1 := rfl

/-- Every outcome is counted in exactly one of three places: with the times, as inconclusive, or as
failed. -/
@[simp] theorem deal_outcomes (s : FolderStatistics) (o : Outcome) :
    (s.deal o).outcomes = s.outcomes + 1 := by
  rcases o with (seconds | reason) | m
  · exact outcomes_timeOut s
  · exact outcomes_fail s
  · exact outcomes_succeed s m

@[simp] theorem deal_completed (s : FolderStatistics) (o : Outcome) :
    (s.deal o).completed = s.completed := by
  rcases o with (seconds | reason) | m <;> rfl

/-- Outcomes make no rows. -/
@[simp] theorem deal_rows (s : FolderStatistics) (o : Outcome) : (s.deal o).rows = s.rows := by
  rcases o with (seconds | reason) | m <;> rfl

/-- A record that can be written is settled. -/
theorem settle_of_writable {s : FolderStatistics} (h : s.Writable) : s.settle = .done s := by
  rw [settle, (hasTooManyDigits_iff s).2 h]
  rfl

/-- A record that cannot be written stops the course, as saving it does. -/
theorem settle_of_not_writable {s : FolderStatistics} (h : ¬s.Writable) :
    s.settle = .stopped s .tooManyDigits := by
  rw [settle, if_pos]
  rw [← Bool.not_eq_false, hasTooManyDigits_iff]
  exact h

theorem settle_value (s : FolderStatistics) : s.settle.value = s := by
  rw [settle]
  split <;> rfl

/-- The record after an outcome is the same whether it can be written or not. -/
theorem advance_value (s : FolderStatistics) (o : Outcome) : (s.advance o).value = s.deal o := by
  rw [advance]
  split
  · rfl
  · exact settle_value _

/-- What was settled can be written. -/
theorem writable_of_settle {s next : FolderStatistics} (h : s.settle = .done next) :
    next.Writable := by
  by_cases hWritable : s.Writable
  · rw [settle_of_writable hWritable] at h
    cases h
    exact hWritable
  · rw [settle_of_not_writable hWritable] at h
    cases h

/-- An outcome that is dealt with without a fault leaves a record that can be written. -/
theorem advance_eq_done {s next : FolderStatistics} {o : Outcome} (h : s.advance o = .done next) :
    next = s.deal o ∧ next.Writable := by
  have hValue := s.advance_value o
  rw [h] at hValue
  refine ⟨hValue, ?_⟩
  rw [advance] at h
  split at h
  · cases h
  · exact writable_of_settle h

section Play

variable {s last : FolderStatistics} {rest : List Outcome}

/-- Outcomes that are all dealt with are counted one by one. -/
theorem play_completedTests (h : s.play rest = .done last) :
    last.completedTests = s.completedTests + rest.length := by
  induction rest generalizing s with
  | nil =>
      cases h
      rfl
  | cons o rest ih =>
      rw [play] at h
      split at h
      · cases h
        rfl
      · obtain ⟨next, hNext, hRest⟩ := Reached.bind_eq_done.1 h
        rw [ih hRest, (advance_eq_done hNext).1, deal_completedTests, List.length_cons]
        omega

/-- However many outcomes are dealt with, none makes a row. -/
theorem play_rows (s : FolderStatistics) (rest : List Outcome) :
    (s.play rest).value.rows = s.rows := by
  induction rest generalizing s with
  | nil => rfl
  | cons o rest ih =>
      rw [play]
      split
      · rfl
      · have hValue := s.advance_value o
        cases hFault : (s.advance o).fault with
        | none => rw [Reached.bind_of_none hFault, ih, hValue, deal_rows]
        | some fault => rw [Reached.bind_of_fault (by simp [hFault]), hValue, deal_rows]

end Play

/-- A folder is completed with its summary, whether there is a row or not. -/
theorem addSummary_completed (s : FolderStatistics) (solver folder : String) (total : Nat) :
    (s.addSummary solver folder total).value.completed = true := by
  rw [addSummary]
  split
  · rfl
  · split
    · rfl
    · split <;> rfl

/-- A folder that is closed without a fault is completed, and its record can be written. -/
theorem close_eq_done {s last : FolderStatistics} {solver folder : String} {total : Nat}
    (h : s.close solver folder total = .done last) : last.completed = true ∧ last.Writable := by
  obtain ⟨whole, hSummary, hSettle⟩ := Reached.bind_eq_done.1 h
  have hCompleted := s.addSummary_completed solver folder total
  have hValue := whole.settle_value
  rw [hSummary] at hCompleted
  rw [hSettle] at hValue
  exact ⟨by rw [show last = whole from hValue]; exact hCompleted, writable_of_settle hSettle⟩

/-- The same for the whole course of a folder from its beginning. -/
theorem conclude_eq_done {outcomes : List Outcome} {solver folder : String}
    {last : FolderStatistics} (h : conclude outcomes solver folder = .done last) :
    last.completed = true ∧ last.Writable := by
  obtain ⟨s, -, hClose⟩ := Reached.bind_eq_done.1 h
  exact close_eq_done hClose

/-- A mean can be taken of every list but the empty one. -/
theorem exists_mean {xs : List Binary64} (h : xs ≠ []) : ∃ x, mean xs = .ok x := by
  rw [mean, Binary64.mean?, if_neg (by simpa using h)]
  cases Binary64.nonFiniteTotal xs <;> exact ⟨_, rfl⟩

/-- So can a least or a largest number. -/
theorem exists_extreme (choose : Binary64 → Binary64 → Binary64) {xs : List Binary64}
    (h : xs ≠ []) : ∃ x, extreme choose xs = .ok x := by
  cases xs with
  | nil => exact absurd rfl h
  | cons x xs => exact ⟨_, rfl⟩

/-- Only a number of decisions that is too large has no average. -/
theorem averageDecisions_cases (decisions total : Int) :
    (∃ x, averageDecisions decisions total = .ok x) ∨
      averageDecisions decisions total = .error .quotientTooLarge := by
  rw [averageDecisions]
  split
  · rw [Number.quotient]
    split
    · exact .inl ⟨_, rfl⟩
    · exact .inr rfl
  · exact .inl ⟨_, rfl⟩

/-- The first two cells of a row name the solver and the folder. -/
theorem summaryRow_names {s : FolderStatistics} {solver folder : String} {total : Int}
    {row : SummaryRow} (h : s.summaryRow solver folder total = .ok row) :
    row.solver = solver ∧ row.folder = folder := by
  obtain ⟨_, -, h⟩ := bind_eq_ok_iff.1 h
  obtain ⟨_, -, h⟩ := bind_eq_ok_iff.1 h
  obtain ⟨_, -, h⟩ := bind_eq_ok_iff.1 h
  obtain ⟨_, -, h⟩ := bind_eq_ok_iff.1 h
  obtain ⟨_, -, h⟩ := bind_eq_ok_iff.1 h
  cases h
  exact ⟨rfl, rfl⟩

section Summary

variable {s : FolderStatistics} (hTimes : s.times ≠ []) (hMemories : s.memories ≠ [])

include hTimes hMemories

/-- There is a row for times and memories as soon as the decisions have an average. -/
theorem summaryRow_of_average {total : Int} {average : Binary64}
    (hAverage : averageDecisions s.decisions total = .ok average) (solver folder : String) :
    ∃ row, s.summaryRow solver folder total = .ok row ∧ row.inconclusive = s.inconclusive ∧
      row.failed = s.failed := by
  obtain ⟨avgTime, hAvgTime⟩ := exists_mean hTimes
  obtain ⟨minTime, hMinTime⟩ := exists_extreme Binary64.smaller hTimes
  obtain ⟨maxTime, hMaxTime⟩ := exists_extreme Binary64.larger hTimes
  obtain ⟨avgMemory, hAvgMemory⟩ := exists_mean hMemories
  rw [summaryRow, hAverage, hAvgTime, hMinTime, hMaxTime, hAvgMemory]
  exact ⟨_, rfl, rfl, rfl⟩

/-- Once there are times, only a quotient beyond all double precision can prevent a summary. -/
theorem summaryRow_eq_error {solver folder : String} {total : Int} {fault : Misuse}
    (h : s.summaryRow solver folder total = .error fault) : fault = .quotientTooLarge := by
  rcases averageDecisions_cases s.decisions total with ⟨average, hAverage⟩ | hAverage
  · obtain ⟨row, hRow, -⟩ := summaryRow_of_average hTimes hMemories hAverage solver folder
    rw [hRow] at h
    cases h
  · rw [summaryRow, hAverage] at h
    cases h
    rfl

end Summary

theorem writable_fresh : fresh.Writable := by
  have hZero : Short 0 := by
    rw [Short, Number.hasTooManyDigits_whole]
    exact Number.digitBound_pos
  exact ⟨hZero, hZero, hZero, List.forall_mem_nil _, hZero, hZero⟩

namespace Pending

variable {outcomes : List Outcome} {n : Nat} {s : FolderStatistics} (h : Pending outcomes n s)

include h

theorem completedTests_eq : s.completedTests = n := by
  induction h with
  | fresh => rfl
  | advance _ _ _ hNext ih => rw [(advance_eq_done hNext).1, deal_completedTests, ih]

theorem outcomes_eq : s.outcomes = n := by
  induction h with
  | fresh => rfl
  | advance _ _ _ hNext ih => rw [(advance_eq_done hNext).1, deal_outcomes, ih]

theorem completed_eq : s.completed = false := by
  induction h with
  | fresh => rfl
  | advance _ _ _ hNext ih => rw [(advance_eq_done hNext).1, deal_completed, ih]

theorem rows_eq : s.rows = [] := by
  induction h with
  | fresh => rfl
  | advance _ _ _ hNext ih => rw [(advance_eq_done hNext).1, deal_rows, ih]

theorem le_length : n ≤ outcomes.length := by
  cases h with
  | fresh => exact Nat.zero_le _
  | advance _ hOutcome _ _ => exact (List.getElem?_eq_some_iff.1 hOutcome).1

/-- Wherever the way is taken up again, it ends at the same record. -/
theorem play_drop : s.play (outcomes.drop n) = FolderStatistics.fresh.play outcomes := by
  induction h with
  | fresh => rfl
  | advance _ hOutcome hLive hNext ih =>
      obtain ⟨hLt, hGet⟩ := List.getElem?_eq_some_iff.1 hOutcome
      rw [List.drop_eq_getElem_cons hLt, play, if_neg (Nat.not_le.2 hLive), hGet, hNext,
        Reached.done_bind] at ih
      exact ih

end Pending

end FolderStatistics

end SatLab
