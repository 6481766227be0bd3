import Mathlib.Algebra.Order.Ring.Int
import SatLab.Proofs.Benchmark.FolderHistory

/-! What the record of a folder says about the outcomes that came in. Each of them is counted once,
and times, memory and decisions are those of the measured ones. -/

namespace SatLab

namespace Binary64

/-- The comparison of times is the comparison of their ranks; what is not a number has none. -/
theorem lt_eq_true {x y : Binary64} :
    lt x y = true ↔ ∃ a b, x.rank = some a ∧ y.rank = some b ∧ a < b := by
  unfold lt
  cases x.rank <;> cases y.rank <;> simp

theorem lt_irrefl (x : Binary64) : lt x x = false := by
  unfold lt
  cases x.rank <;> simp

theorem lt_trans {x y z : Binary64} (h : lt x y = true) (h' : lt y z = true) : lt x z = true := by
  obtain ⟨a, b, hx, hy, hLess⟩ := lt_eq_true.1 h
  obtain ⟨b', d, hy', hz, hLess'⟩ := lt_eq_true.1 h'
  obtain rfl : b = b' := Option.some.inj (hy.symm.trans hy')
  exact lt_eq_true.2 ⟨a, d, hx, hz, Int.lt_trans hLess hLess'⟩

/-- One of a list of numbers, with none of the list before it. -/
structure IsFirst (before : Binary64 → Binary64 → Bool) (x : Binary64) (xs : List Binary64) :
    Prop where
  mem : x ∈ xs
  bound : ∀ y ∈ xs, before y x = false

/-- The first element of a list in an order, compared with one more element, is the first of the
longer list. -/
theorem IsFirst.concat {before : Binary64 → Binary64 → Bool} {x : Binary64} {xs : List Binary64}
    (h : IsFirst before x xs) (hIrrefl : ∀ x, before x x = false)
    (hTrans : ∀ x y z, before x y = true → before y z = true → before x z = true) (y : Binary64) :
    IsFirst before (if before y x then y else x) (xs ++ [y]) := by
  cases hNew : before y x with
  | true =>
      rw [if_pos rfl]
      refine ⟨List.mem_append_right _ List.mem_cons_self, ?_⟩
      rw [List.forall_mem_append, List.forall_mem_singleton]
      refine ⟨fun z hz => ?_, hIrrefl y⟩
      have hOld := h.bound z hz
      rw [← Bool.not_eq_true] at hOld ⊢
      exact fun hLess => hOld (hTrans z y x hLess hNew)
  | false =>
      rw [if_neg Bool.false_ne_true]
      refine ⟨List.mem_append_left _ h.mem, ?_⟩
      rw [List.forall_mem_append, List.forall_mem_singleton]
      exact ⟨h.bound, hNew⟩

/-- The smallest number of a list and the positive infinity. -/
def IsLowest (x : Binary64) (xs : List Binary64) : Prop := IsFirst lt x (.infinite false :: xs)

/-- The largest number of a list and the negative infinity. -/
def IsHighest (x : Binary64) (xs : List Binary64) : Prop :=
  IsFirst (fun a b => lt b a) x (.infinite true :: xs)

/-- The lowest of no times is the infinite time a fresh record starts from. -/
theorem isLowest_nil : IsLowest (.infinite false) [] :=
  ⟨List.mem_cons_self, List.forall_mem_singleton.2 (lt_irrefl _)⟩

/-- The highest of no times is the negative infinite time a fresh record starts from. -/
theorem isHighest_nil : IsHighest (.infinite true) [] :=
  ⟨List.mem_cons_self, List.forall_mem_singleton.2 (lt_irrefl _)⟩

/-- The lowest time is kept up with one comparison for each new time. -/
theorem IsLowest.smaller {x : Binary64} {xs : List Binary64} (h : IsLowest x xs) (y : Binary64) :
    IsLowest (x.smaller y) (xs ++ [y]) :=
  IsFirst.concat h lt_irrefl (fun _ _ _ => lt_trans) y

/-- The highest time is kept up with one comparison for each new time. -/
theorem IsHighest.larger {x : Binary64} {xs : List Binary64} (h : IsHighest x xs) (y : Binary64) :
    IsHighest (x.larger y) (xs ++ [y]) := by
  have hTrans : ∀ x y z : Binary64, lt y x = true → lt z y = true → lt z x = true :=
    fun _ _ _ hxy hyz => lt_trans hyz hxy
  exact IsFirst.concat h lt_irrefl hTrans y

end Binary64

namespace Outcome

/-- The measurements among outcomes. -/
def measured (os : List Outcome) : List Measurement := os.filterMap Except.toOption

/-- Whether no result came in time. -/
def isLate : Outcome → Bool
  | .error (.timeout _) => true
  | _ => false

def isFailure : Outcome → Bool
  | .error (.failed _) => true
  | _ => false

/-- The timeouts since the last outcome that is none. -/
def streak (os : List Outcome) : Nat := (os.reverse.takeWhile isLate).length

/-- The timeouts in a row after one more outcome. -/
def countOn (carried : Nat) (o : Outcome) : Nat := if o.isLate then carried + 1 else 0

/-- One more outcome adds its measurement, if it has one. -/
theorem measured_concat (os : List Outcome) (o : Outcome) :
    measured (os ++ [o]) = measured os ++ o.toOption.toList := by
  rw [measured, List.filterMap_append]
  cases o <;> rfl

/-- The streak of timeouts grows with a timeout and is broken by anything else. -/
theorem streak_concat (os : List Outcome) (o : Outcome) :
    streak (os ++ [o]) = if o.isLate then streak os + 1 else 0 := by
  rw [streak, List.reverse_append, List.reverse_singleton, List.singleton_append,
    List.takeWhile_cons]
  split <;> rfl

theorem measured_cons (o : Outcome) (os : List Outcome) :
    measured (o :: os) = o.toOption.toList ++ measured os := by
  cases o <;> rfl

/-- An outcome is measured, late or a failure. -/
theorem length_eq (os : List Outcome) :
    os.length = (measured os).length + os.countP isLate + os.countP isFailure := by
  induction os with
  | nil => rfl
  | cons o os ih =>
      rw [List.length_cons, List.countP_cons, List.countP_cons, ih, measured_cons,
        List.length_append]
      rcases o with (seconds | reason) | m <;>
        simp only [Except.toOption, Option.toList, List.length_nil, List.length_singleton, isLate,
          isFailure, if_true, Bool.false_eq_true, if_false] <;>
        omega

end Outcome

namespace FolderStatistics

/-- Dealing with an outcome counts it in the streak of timeouts. -/
@[simp] theorem deal_timeouts (s : FolderStatistics) (o : Outcome) :
    (s.deal o).consecutiveTimeouts = Outcome.countOn s.consecutiveTimeouts o := by
  rcases o with (seconds | reason) | m <;> rfl

/-- Only a timeout adds to the inconclusive count. -/
theorem deal_inconclusive (s : FolderStatistics) (o : Outcome) :
    (s.deal o).inconclusive = s.inconclusive + if o.isLate then 1 else 0 := by
  rcases o with (seconds | reason) | m <;> rfl

/-- Only a failure adds to the failed count. -/
theorem deal_failed (s : FolderStatistics) (o : Outcome) :
    (s.deal o).failed = s.failed + if o.isFailure then 1 else 0 := by
  rcases o with (seconds | reason) | m <;> rfl

/-- The record of a folder has the sums over these measurements. -/
structure Sums (s : FolderStatistics) (ms : List Measurement) : Prop where
  times : s.times = ms.map Measurement.elapsed
  memories : s.memories = ms.map (·.memory.mean)
  least : s.memoryLeast.IsLowest (ms.map (·.memory.least))
  largest : s.memoryLargest.IsHighest (ms.map (·.memory.largest))
  decisions : s.decisions = (ms.map Measurement.count).sum

/-- A solved instance adds its measurement to every sum, list and extreme of the record. -/
theorem Sums.succeed {s : FolderStatistics} {ms : List Measurement} (h : s.Sums ms)
    (m : Measurement) : (s.succeed m).Sums (ms ++ [m]) where
  times := by
    rw [List.map_append, ← h.times]
    rfl
  memories := by
    rw [List.map_append, ← h.memories]
    rfl
  least := by
    rw [List.map_append]
    exact h.least.smaller m.memory.least
  largest := by
    rw [List.map_append]
    exact h.largest.larger m.memory.largest
  decisions := by
    rw [List.map_append, List.sum_append, ← h.decisions]
    exact congrArg (s.decisions + ·) (Int.add_zero m.count).symm

/-- The record of a folder after some outcomes, with instances that were given up after them. -/
structure Tally (s : FolderStatistics) (os : List Outcome) (skipped : Nat) : Prop where
  sums : s.Sums (Outcome.measured os)
  inconclusive : s.inconclusive = os.countP Outcome.isLate + skipped
  failed : s.failed = os.countP Outcome.isFailure
  completedTests : s.completedTests = os.length + skipped
  timeouts : s.consecutiveTimeouts = Outcome.streak os

/-- A fresh record tallies no outcomes. -/
theorem tally_fresh : fresh.Tally [] 0 where
  sums := ⟨rfl, rfl, Binary64.isLowest_nil, Binary64.isHighest_nil, rfl⟩
  inconclusive := rfl
  failed := rfl
  completedTests := rfl
  timeouts := rfl

namespace Tally

variable {s : FolderStatistics} {os : List Outcome} {skipped : Nat} (h : s.Tally os skipped)

include h

/-- Every instance is counted once. -/
theorem outcomes_eq : s.outcomes = s.completedTests := by
  rw [outcomes, h.sums.times, h.inconclusive, h.failed, h.completedTests, List.length_map,
    Outcome.length_eq os]
  omega

/-- One more outcome is counted. -/
theorem deal (o : Outcome) : (s.deal o).Tally (os ++ [o]) skipped where
  sums := by
    rw [Outcome.measured_concat]
    cases o with
    | error fault =>
        obtain ⟨hTimes, hMemories, hLeast, hLargest, hDecisions⟩ := h.sums
        rw [Except.toOption, Option.toList_none, List.append_nil]
        cases fault <;> exact ⟨hTimes, hMemories, hLeast, hLargest, hDecisions⟩
    | ok m =>
        obtain ⟨hTimes, hMemories, hLeast, hLargest, hDecisions⟩ := h.sums.succeed m
        exact ⟨hTimes, hMemories, hLeast, hLargest, hDecisions⟩
  inconclusive := by
    rw [deal_inconclusive, h.inconclusive, List.countP_append, List.countP_singleton]
    omega
  failed := by
    rw [deal_failed, h.failed, List.countP_append, List.countP_singleton]
  completedTests := by
    rw [deal_completedTests, h.completedTests, List.length_append, List.length_singleton]
    omega
  timeouts := by
    rw [deal_timeouts, h.timeouts, Outcome.streak_concat, Outcome.countOn]

/-- The instances that are left are counted as given up. -/
theorem giveUp (left : Nat) : (s.giveUp left).Tally os (skipped + left) where
  sums := by
    obtain ⟨hTimes, hMemories, hLeast, hLargest, hDecisions⟩ := h.sums
    exact ⟨hTimes, hMemories, hLeast, hLargest, hDecisions⟩
  inconclusive := (congrArg (· + left) h.inconclusive).trans (Nat.add_assoc _ _ _)
  failed := h.failed
  completedTests := (congrArg (· + left) h.completedTests).trans (Nat.add_assoc _ _ _)
  timeouts := h.timeouts

end Tally

end FolderStatistics

end SatLab
