import SatLab.Benchmark.Workbench
import SatLab.Proofs.Storage.NumberedPath

/-! Every result table gets a name of its own. The names are numbered, and the number that is taken
is at most one that is not in use. -/

namespace SatLab

namespace Benchmark

/-- The names of the result tables, in the order in which they are taken. -/
def tableName : Nat → String
  | 0 => "benchmark.csv"
  | n + 1 => "benchmark (" ++ toString (n + 1) ++ ").csv"

def tableAt (n : Nat) : String := FileTree.inFolder resultFolder (tableName n)

theorem tableAt_zero : tableAt 0 = tablePath := by decide

theorem numberedPath_tablePath {n : Nat} (h : 1 ≤ n) : numberedPath tablePath n = tableAt n := by
  obtain ⟨m, rfl⟩ := Nat.exists_eq_add_of_le' h
  have hMark : ∀ mark : List Char, markSuffix mark tablePath.toList =
      "results/benchmark".toList ++ mark ++ ".csv".toList := fun _ => rfl
  rw [numberedPath, hMark, tableAt, FileTree.inFolder, tableName]
  apply String.toList_inj.1
  simp [resultFolder]

theorem tableName_toList (n : Nat) : (tableName (n + 1)).toList =
    "benchmark (".toList ++ Nat.toDigits 10 (n + 1) ++ ").csv".toList := by
  simp only [tableName, String.toList_append, Nat.toString_eq_ofList_toDigits,
    String.toList_ofList]

theorem isName_resultFolder : FileTree.IsName resultFolder := by
  constructor <;> decide

/-- Tables of different numbers have different names. -/
theorem tableName_injective {m n : Nat} (h : tableName m = tableName n) : m = n := by
  have hZero : ∀ k, tableName 0 ≠ tableName (k + 1) := by
    intro k hEq
    have hList := congrArg String.toList hEq
    rw [tableName_toList] at hList
    simp [tableName] at hList
  cases m with
  | zero =>
      cases n with
      | zero => rfl
      | succ n => exact absurd h (hZero n)
  | succ m =>
      cases n with
      | zero => exact absurd h.symm (hZero m)
      | succ n =>
          have hList := congrArg String.toList h
          rw [tableName_toList, tableName_toList, List.append_left_inj, List.append_right_inj]
            at hList
          have hValue := congrArg (Nat.ofDigitChars 10 · 0) hList
          simpa only [Nat.ofDigitChars_ten_toDigits] using hValue

theorem utf8ByteSize_toString (n : Nat) :
    (toString n).utf8ByteSize = (Nat.toDigits 10 n).length := by
  have hDigits : ∀ digits : List Char, (∀ c ∈ digits, c.isDigit = true) →
      (String.ofList digits).utf8ByteSize = digits.length := by
    intro digits
    induction digits with
    | nil => intro _; rfl
    | cons c digits ih =>
        intro h
        rw [List.forall_mem_cons] at h
        have hSize : c.utf8Size = 1 := by
          have hRange : c.val ≤ 57 := by
            have hDigit := h.1
            simp only [Char.isDigit, Bool.and_eq_true, decide_eq_true_eq] at hDigit
            exact hDigit.2
          exact if_pos (UInt32.le_trans hRange (by decide))
        rw [String.ofList_cons, String.utf8ByteSize_append, ih h.2, List.length_cons,
          String.utf8ByteSize_singleton, hSize, Nat.add_comm]
  rw [Nat.toString_eq_ofList_toDigits]
  exact hDigits _ fun c => Nat.isDigit_of_mem_toDigits (by decide) (by decide)

/-- A numbered name has only these characters. -/
theorem not_mem_tableName {c : Char} (hLeft : c ∉ "benchmark (".toList)
    (hRight : c ∉ ").csv".toList) (hDigit : c.isDigit = false) (n : Nat) :
    c ∉ (tableName (n + 1)).toList := by
  intro hMem
  rw [tableName_toList, List.mem_append, List.mem_append] at hMem
  rcases hMem with (hMem | hMem) | hMem
  · exact hLeft hMem
  · rw [Nat.isDigit_of_mem_toDigits (by decide) (by decide) hMem] at hDigit
    cases hDigit
  · exact hRight hMem

theorem utf8ByteSize_tableName (n : Nat) :
    (tableName (n + 1)).utf8ByteSize = (Nat.toDigits 10 (n + 1)).length + 16 := by
  have hLeft : "benchmark (".utf8ByteSize = 11 := by decide
  have hRight : ").csv".utf8ByteSize = 5 := by decide
  rw [tableName, String.utf8ByteSize_append, String.utf8ByteSize_append, hLeft, hRight,
    utf8ByteSize_toString]
  omega

/-- The name of a table is one a file can have, as long as its number has few enough digits. -/
theorem isName_tableName {n : Nat} (h : n < 10 ^ 239) : FileTree.IsName (tableName n) := by
  cases n with
  | zero => constructor <;> decide
  | succ n =>
      have hLength : (Nat.toDigits 10 (n + 1)).length ≤ 239 :=
        (Nat.length_toDigits_le_iff (by decide) (by decide)).2 h
      have hLong : 12 ≤ (tableName (n + 1)).toList.length := by
        simp [tableName_toList]
      refine ⟨not_mem_tableName (by decide) (by decide) (by decide) n,
        not_mem_tableName (by decide) (by decide) (by decide) n, ?_, ?_, ?_, ?_⟩
      · rintro hEq
        simp [hEq] at hLong
      · rintro hEq
        simp [hEq] at hLong
      · rintro hEq
        simp [hEq] at hLong
      · rw [utf8ByteSize_tableName, FileTree.nameLimit]
        omega

/-- A name short enough for a file has a number below the bound. -/
theorem lt_of_short {n : Nat} (h : (tableName (n + 1)).utf8ByteSize ≤ FileTree.nameLimit) :
    n + 1 < 10 ^ 239 := by
  rw [utf8ByteSize_tableName, FileTree.nameLimit] at h
  exact (Nat.length_toDigits_le_iff (by decide) (by decide)).1 (by omega)

/-- There is no table whose name is too long. -/
theorem resolve_tableAt_of_large {n : Nat} (h : 10 ^ 239 ≤ n) (t : FileTree) :
    ∃ problem, t.resolve (tableAt n) = .error problem := by
  cases n with
  | zero => exact absurd h (by decide)
  | succ n =>
      have hLong : ¬(Nat.toDigits 10 (n + 1)).length ≤ 239 := fun hLe =>
        Nat.not_le.2 ((Nat.length_toDigits_le_iff (by decide) (by decide)).1 hLe) h
      refine FileTree.resolve_of_long isName_resultFolder
        (not_mem_tableName (by decide) (by decide) (by decide) n)
        (not_mem_tableName (by decide) (by decide) (by decide) n) ?_ t
      rw [utf8ByteSize_tableName, FileTree.nameLimit]
      omega

section Free

variable {t : FileTree} (hThere : t[resultFolder]? = some .directory)

/-- Tables of different numbers have different paths. -/
theorem tableAt_injective {m n : Nat} (h : tableAt m = tableAt n) : m = n := by
  refine tableName_injective (String.toList_inj.1 ?_)
  have hList := congrArg String.toList h
  simpa [tableAt, FileTree.inFolder] using hList

variable (t) in
/-- The table of a run is the first one whose name is not in use. -/
theorem exists_freePath_tablePath :
    ∃ n ≤ t.size + 1, t.freePath tablePath = tableAt n ∧ t.present (tableAt n) = false ∧
      ∀ m < n, t.present (tableAt m) = true := by
  have hSuffix : ".csv".toList <:+: tablePath.toList := ⟨"results/benchmark".toList, [], by decide⟩
  rcases t.freePath_cases hSuffix with
    ⟨hBase, hPath⟩ | ⟨hBase, n, hFirst, hLast, hPath, hOpen, hBefore⟩
  · rw [← tableAt_zero] at hBase hPath
    exact ⟨0, Nat.zero_le _, hPath, hBase, fun m hm => absurd hm (Nat.not_lt_zero m)⟩
  · rw [← tableAt_zero] at hBase
    rw [numberedPath_tablePath hFirst] at hPath hOpen
    refine ⟨n, hLast, hPath, hOpen, fun m hm => ?_⟩
    rcases Nat.eq_zero_or_pos m with rfl | hPos
    · exact hBase
    · rw [← numberedPath_tablePath hPos]
      exact hBefore m hPos hm

include hThere

theorem present_tableAt {n : Nat} (h : n < 10 ^ 239) :
    t.present (tableAt n) = (t[tableAt n]?).isSome :=
  FileTree.present_inFolder isName_resultFolder (isName_tableName h) hThere

/-- The number of the table is at most one that is free. -/
theorem freePath_tablePath {bound : Nat} (hBound : bound < 10 ^ 239)
    (hFree : t[tableAt bound]? = none) :
    ∃ n ≤ bound, t.freePath tablePath = tableAt n ∧ t[tableAt n]? = none := by
  obtain ⟨n, -, hPath, hOpen, hBefore⟩ := exists_freePath_tablePath t
  have hLe : n ≤ bound := by
    by_contra hGt
    have hUsed := hBefore bound (Nat.lt_of_not_le hGt)
    rw [present_tableAt hThere hBound, hFree] at hUsed
    cases hUsed
  refine ⟨n, hLe, hPath, ?_⟩
  rwa [present_tableAt hThere (Nat.lt_of_le_of_lt hLe hBound), Option.isSome_eq_false_iff,
    Option.isNone_iff_eq_none] at hOpen

end Free

end Benchmark

end SatLab
