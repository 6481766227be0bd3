import SatLab.Proofs.Benchmark.CampaignRun
import SatLab.Proofs.Number.Rounding

/-! Records with moderate numbers. Unless the counts of a solver or the number of instances go
beyond `10 ^ 200`, every record can be written and every summary can be made. -/

namespace SatLab

/-- An outcome with a moderate count. -/
def Outcome.Moderate (o : Outcome) : Prop := ∀ m, o = .ok m → m.count.natAbs ≤ 10 ^ 200

namespace FolderStatistics

/-- A whole number up to the bound has few enough digits to be written out. -/
theorem short_of_le {k : Int} (h : k.natAbs ≤ 10 ^ 200 * 10 ^ 200) : Short k := by
  rw [Short, Number.hasTooManyDigits_whole, Number.digitBound]
  refine Nat.lt_of_le_of_lt h ?_
  rw [← Nat.pow_add, Nat.pow_eq]
  exact Nat.pow_lt_pow_right (by decide) (by decide)

/-- A record with moderate numbers after a number of outcomes. -/
structure Moderate (s : FolderStatistics) (n : Nat) : Prop where
  others : s.inconclusive + s.failed ≤ n
  timeouts : s.consecutiveTimeouts ≤ n
  tests : s.completedTests ≤ n
  decisions : s.decisions.natAbs ≤ 10 ^ 200 * n
  memories : s.memories.length = s.times.length
  rows : s.rows = []

/-- A fresh record is moderate after no instances. -/
theorem moderate_fresh : fresh.Moderate 0 := by
  constructor <;> simp [fresh]

namespace Moderate

variable {s : FolderStatistics} {n : Nat} (h : s.Moderate n)

include h

/-- A moderate record of at most `10 ^ 200` instances can be written to the backup. -/
theorem writable (hn : n ≤ 10 ^ 200) : s.Writable := by
  have hSmall : ∀ k : Nat, k ≤ n → Short k := fun k hk =>
    short_of_le (Nat.le_trans (Nat.le_trans hk hn) (Nat.le_mul_of_pos_right _ (by decide)))
  have hOthers := h.others
  refine ⟨hSmall _ (by omega), hSmall _ (by omega), hSmall _ h.tests, ?_, hSmall _ h.timeouts,
    short_of_le (Nat.le_trans h.decisions (Nat.mul_le_mul_left _ hn))⟩
  rw [h.rows]
  exact List.forall_mem_nil _

/-- Dealing with a moderate outcome keeps a record moderate, one instance further. -/
theorem deal {o : Outcome} (ho : o.Moderate) : (s.deal o).Moderate (n + 1) := by
  obtain ⟨hOthers, hTimeouts, hTests, hDecisions, hMemories, hRows⟩ := h
  have hMore : s.decisions.natAbs ≤ 10 ^ 200 * (n + 1) :=
    Nat.le_trans hDecisions (Nat.mul_le_mul_left _ (Nat.le_succ n))
  rcases o with (seconds | reason) | m
  · exact ⟨by simp only [FolderStatistics.deal, takeIn, timeOut]; omega, Nat.succ_le_succ hTimeouts,
      Nat.succ_le_succ hTests, hMore, hMemories, hRows⟩
  · exact ⟨by simp only [FolderStatistics.deal, takeIn, fail]; omega, Nat.zero_le _,
      Nat.succ_le_succ hTests, hMore, hMemories, hRows⟩
  · refine ⟨Nat.le_succ_of_le hOthers, Nat.zero_le _, Nat.succ_le_succ hTests, ?_, ?_, hRows⟩
    · have hCount := ho m rfl
      have hSum := Int.natAbs_add_le s.decisions m.count
      rw [Nat.mul_succ]
      exact Nat.le_trans hSum (Nat.add_le_add hDecisions hCount)
    · simp [FolderStatistics.deal, takeIn, succeed, hMemories]

/-- Giving up the instances left keeps a record moderate. -/
theorem giveUp (left : Nat) : (s.giveUp left).Moderate (n + left) := by
  obtain ⟨hOthers, hTimeouts, hTests, hDecisions, hMemories, hRows⟩ := h
  exact ⟨by simp only [FolderStatistics.giveUp, skip]; omega, Nat.le_add_right_of_le hTimeouts,
    Nat.add_le_add_right hTests left,
    Nat.le_trans hDecisions (Nat.mul_le_mul_left _ (Nat.le_add_right n left)), hMemories, hRows⟩

/-- A moderate attempt neither overflows a counter nor leaves a record that cannot be written. -/
theorem advance {o : Outcome} (ho : o.Moderate) (hn : n + 1 ≤ 10 ^ 200) :
    s.advance o = .done (s.deal o) := by
  have hShort : o.tooLong = false := by
    cases o with
    | error fault => rfl
    | ok m =>
        have hCount : Short m.count :=
          short_of_le (Nat.le_trans (ho m rfl) (Nat.le_mul_of_pos_right _ (by decide)))
        rw [Outcome.tooLong]
        exact hCount
  rw [FolderStatistics.advance, hShort, settle_of_writable ((h.deal ho).writable hn)]
  rfl

/-- A whole series of moderate outcomes is played through to its end. -/
theorem play {rest : List Outcome} (hRest : ∀ o ∈ rest, o.Moderate)
    (hn : n + rest.length ≤ 10 ^ 200) :
    ∃ last, s.play rest = .done last ∧ last.Moderate (n + rest.length) := by
  induction rest generalizing s n with
  | nil => exact ⟨s, rfl, h⟩
  | cons o rest ih =>
      rw [List.forall_mem_cons] at hRest
      rw [List.length_cons] at hn ⊢
      rw [FolderStatistics.play]
      split
      · exact ⟨_, rfl, h.giveUp (rest.length + 1)⟩
      · have hNext := ih (h.deal hRest.1) hRest.2 (by omega)
        rw [h.advance hRest.1 (by omega), Reached.done_bind]
        rwa [Nat.add_assoc, Nat.add_comm 1] at hNext

/-- The decisions of a moderate record can be averaged. -/
theorem averageDecisions_eq : ∃ x, averageDecisions s.decisions n = .ok x := by
  rw [averageDecisions]
  split
  · have hPos : 0 < n := by omega
    have hFinite := Binary64.isFinite_ofRatio
      (decide (s.decisions < 0) ^^ decide ((n : Int) < 0)) hPos h.decisions
    rw [Number.quotient, Int.natAbs_natCast]
    simp only [hFinite, if_true]
    exact ⟨_, rfl⟩
  · exact ⟨_, rfl⟩

/-- A moderate record with a solved instance has a summary row, which carries its own counts of
inconclusive and failed instances. -/
theorem summaryRow_eq (hTimes : s.times.isEmpty = false) (solver folder : String) :
    ∃ row, s.summaryRow solver folder n = .ok row ∧ row.inconclusive = s.inconclusive ∧
      row.failed = s.failed := by
  have hSome : s.times ≠ [] := List.isEmpty_eq_false_iff.1 hTimes
  have hMemories : s.memories ≠ [] := by
    rw [← List.length_pos_iff] at hSome ⊢
    rwa [h.memories]
  obtain ⟨average, hAverage⟩ := h.averageDecisions_eq
  exact summaryRow_of_average hSome hMemories hAverage solver folder

/-- A moderate folder is closed without a fault. -/
theorem close (hn : n ≤ 10 ^ 200) (solver folder : String) :
    ∃ last, s.close solver folder n = .done last := by
  have hWritable := h.writable hn
  have hWhole : ({ s with completed := true } : FolderStatistics).Writable :=
    ⟨hWritable.inconclusive, hWritable.failed, hWritable.completedTests, hWritable.rows,
      hWritable.consecutiveTimeouts, hWritable.decisions⟩
  rw [FolderStatistics.close, addSummary]
  cases hTimes : s.times.isEmpty with
  | true => exact ⟨_, settle_of_writable hWhole⟩
  | false =>
      obtain ⟨row, hRow, hInconclusive, hFailed⟩ := h.summaryRow_eq hTimes solver folder
      have hShort : Short row.inconclusive ∧ Short row.failed := by
        rw [hInconclusive, hFailed]
        exact ⟨hWritable.inconclusive, hWritable.failed⟩
      have hLast : ({ s with completed := true, rows := s.rows ++ [row] } :
          FolderStatistics).Writable := by
        refine ⟨hWritable.inconclusive, hWritable.failed, hWritable.completedTests, ?_,
          hWritable.consecutiveTimeouts, hWritable.decisions⟩
        rw [List.forall_mem_append, List.forall_mem_singleton]
        exact ⟨hWritable.rows, hShort⟩
      simp only [hRow, (hasTooManyDigits_row row).2 hShort, Bool.false_eq_true, if_false]
      exact ⟨_, settle_of_writable hLast⟩

end Moderate

/-- A folder with moderate outcomes is closed. -/
theorem conclude_moderate {outcomes : List Outcome} (h : ∀ o ∈ outcomes, o.Moderate)
    (hLength : outcomes.length ≤ 10 ^ 200) (solver folder : String) :
    ∃ last, conclude outcomes solver folder = .done last := by
  have hStart : 0 + outcomes.length ≤ 10 ^ 200 := by rwa [Nat.zero_add]
  obtain ⟨s, hPlay, hModerate⟩ := moderate_fresh.play h hStart
  rw [Nat.zero_add] at hModerate
  rw [conclude, hPlay, Reached.done_bind]
  exact hModerate.close hLength solver folder

end FolderStatistics

namespace Benchmark.Campaign

variable {c : Campaign} {files : FileTree}

/-- All outcomes are moderate, and there are not too many instances. -/
structure Moderate (c : Campaign) (files : FileTree) : Prop where
  outcomes : ∀ k ∈ c.contestants, ∀ p ∈ c.paths, ∀ folder place,
    (c.outcome files k folder (p, place)).Moderate
  paths : c.paths.length ≤ 10 ^ 200

/-- In a moderate campaign every contestant passes every folder of the tree. -/
theorem Moderate.folderCourse (h : c.Moderate files) {contestant : Contestant}
    (hContestant : contestant ∈ c.contestants) : c.Passes files contestant c.groups := by
  intro group hGroup
  have hOutcomes : ∀ o ∈ c.outcomes files contestant group.1 group.2, o.Moderate := by
    intro o ho
    obtain ⟨⟨p, place⟩, hMember, rfl⟩ := List.mem_map.1 ho
    exact h.outcomes contestant hContestant p
      (mem_of_mem_groupByFolder hGroup (List.fst_mem_of_mem_zipIdx hMember)) group.1 place
  have hLength : (c.outcomes files contestant group.1 group.2).length ≤ 10 ^ 200 := by
    rw [length_outcomes]
    exact (length_le_of_mem_groupByFolder hGroup).trans h.paths
  obtain ⟨last, hLast⟩ :=
    FolderStatistics.conclude_moderate hOutcomes hLength contestant.label group.1
  rw [Campaign.folderCourse, hLast]
  rfl

/-- A campaign with moderate outcomes comes to its end. -/
theorem Moderate.ledgerCourse (h : c.Moderate files) :
    (c.ledgerCourse files c.contestants).fault = none :=
  gather_fault fun _ hk => foldersCourse_fault (h.folderCourse hk)

end Benchmark.Campaign

end SatLab
