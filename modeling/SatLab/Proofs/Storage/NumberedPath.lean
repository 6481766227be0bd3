import Mathlib.Algebra.Order.Ring.Nat
import Mathlib.Data.List.Nodup
import Mathlib.Data.List.Perm.Subperm
import SatLab.Proofs.Storage.FileTree
import SatLab.Storage.FreePath

/-! Numbered paths. They differ in the part that has the number, and a path is in use only if the
tree has an entry for this part; so there are not more numbered paths in use than entries, and the
path that is chosen is one that is not in use. -/

namespace SatLab

/-- What stands in front of the suffix of a numbered path. -/
def numberMark (n : Nat) : List Char := (" (" ++ toString n ++ ")").toList

/-- The mark of a number is a space and the decimal in parentheses. -/
theorem numberMark_eq (n : Nat) : numberMark n = ' ' :: '(' :: (Nat.toDigits 10 n ++ [')']) := by
  simp [numberMark]

/-- The number can be read off where its mark stands. -/
theorem numberMark_inj {left rest rest' : List Char} {m n : Nat}
    (h : left ++ (numberMark m ++ rest) = left ++ (numberMark n ++ rest')) : m = n := by
  have hDigits : ∀ (k : Nat) (more : List Char),
      (Nat.toDigits 10 k ++ ')' :: more).takeWhile Char.isDigit = Nat.toDigits 10 k := by
    intro k more
    rw [List.takeWhile_append_of_pos fun c =>
        Nat.isDigit_of_mem_toDigits (by decide) (by decide),
      List.takeWhile_cons_of_neg (by decide), List.append_nil]
  rw [List.append_right_inj, numberMark_eq, numberMark_eq] at h
  simp only [List.cons_append, List.append_assoc, List.nil_append, List.cons.injEq, true_and] at h
  have hTake := congrArg (List.takeWhile Char.isDigit) h
  rw [hDigits, hDigits] at hTake
  simpa only [Nat.ofDigitChars_ten_toDigits] using congrArg (Nat.ofDigitChars 10 · 0) hTake

/-- No mark moves a file into another folder. -/
theorem slash_not_mem_numberMark (n : Nat) : '/' ∉ numberMark n := by
  rw [numberMark_eq]
  simp only [List.mem_cons, List.mem_append, List.not_mem_nil, or_false, not_or]
  refine ⟨by decide, by decide, fun hDigit => ?_, by decide⟩
  exact absurd (Nat.isDigit_of_mem_toDigits (by decide) (by decide) hDigit) (by decide)

/-- Where the first mark stands in a text with a suffix. -/
theorem exists_markSuffix {text : List Char} (h : ".csv".toList <:+: text) :
    ∃ left right, ∀ mark, markSuffix mark text =
      left ++ (mark ++ (".csv".toList ++ markSuffix mark right)) := by
  fun_induction markSuffix [] text with
  | case1 rest ih => exact ⟨[], rest, fun mark => rfl⟩
  | case2 c rest hOther ih =>
      have hRest : ".csv".toList <:+: rest := by
        rcases List.infix_cons_iff.1 h with ⟨right, hRight⟩ | hLater
        · cases hRight
          exact absurd rfl (hOther right rfl)
        · exact hLater
      obtain ⟨left, right, hMark⟩ := ih hRest
      refine ⟨c :: left, right, fun mark => ?_⟩
      rw [markSuffix, hMark mark, List.cons_append]
      exact hOther
  | case3 => cases List.infix_nil.1 h

/-- Different numbers give different paths. -/
theorem numberedPath_injective {base : String} (h : ".csv".toList <:+: base.toList) :
    Function.Injective (numberedPath base) := by
  intro m n hPath
  obtain ⟨left, right, hMark⟩ := exists_markSuffix h
  have hChars := congrArg String.toList hPath
  rw [numberedPath, numberedPath, String.toList_ofList, String.toList_ofList, hMark,
    hMark] at hChars
  exact numberMark_inj hChars

/-! ### The part with the number -/

/-- A text without slashes is put in front of the first part. -/
theorem splitOn_append_of_not_mem {text : List Char} (h : '/' ∉ text) (more : List Char) :
    ∃ first rest, (text ++ more).splitOn '/' = (text ++ first) :: rest := by
  induction text with
  | nil => exact List.exists_cons_of_ne_nil (List.splitOn_ne_nil '/' more)
  | cons c text ih =>
      rw [List.mem_cons, not_or] at h
      obtain ⟨first, rest, hSplit⟩ := ih h.2
      have hOther : ¬(c == '/') = true := by simpa using Ne.symm h.1
      refine ⟨first, rest, ?_⟩
      rw [List.cons_append, List.splitOn_cons_eq_if_modifyHead, if_neg hOther, hSplit]
      rfl

/-- What stands behind a text goes on with its last part. -/
theorem exists_splitOn_append (text : List Char) : ∃ before stem, ∀ {more first rest},
    more.splitOn '/' = first :: rest →
      (text ++ more).splitOn '/' = before ++ (stem ++ first) :: rest := by
  induction text with
  | nil => exact ⟨[], [], id⟩
  | cons c text ih =>
      obtain ⟨before, stem, hSplit⟩ := ih
      by_cases hSlash : c = '/'
      · refine ⟨[] :: before, stem, fun hMore => ?_⟩
        rw [List.cons_append, List.splitOn_cons_eq_if_modifyHead, hSplit hMore, hSlash]
        rfl
      · have hOther : ¬(c == '/') = true := by simpa using hSlash
        cases before with
        | nil =>
            refine ⟨[], c :: stem, fun hMore => ?_⟩
            rw [List.cons_append, List.splitOn_cons_eq_if_modifyHead, if_neg hOther, hSplit hMore]
            rfl
        | cons part before =>
            refine ⟨(c :: part) :: before, stem, fun hMore => ?_⟩
            rw [List.cons_append, List.splitOn_cons_eq_if_modifyHead, if_neg hOther, hSplit hMore]
            rfl

/-- Numbered paths have the same parts in front of the one with the first mark. -/
theorem exists_slashParts_numberedPath {base : String} (h : ".csv".toList <:+: base.toList) :
    ∃ (before : List String) (stem : List Char), ∀ n, ∃ more rest,
      slashParts (numberedPath base n) =
        before ++ String.ofList (stem ++ (numberMark n ++ more)) :: rest := by
  obtain ⟨left, right, hMark⟩ := exists_markSuffix h
  obtain ⟨before, stem, hSplit⟩ := exists_splitOn_append left
  refine ⟨before.map String.ofList, stem, fun n => ?_⟩
  obtain ⟨more, rest, hMore⟩ := splitOn_append_of_not_mem (slash_not_mem_numberMark n)
    (".csv".toList ++ markSuffix (numberMark n) right)
  have hChars : (numberedPath base n).toList =
      left ++ (numberMark n ++ (".csv".toList ++ markSuffix (numberMark n) right)) := by
    rw [numberedPath, String.toList_ofList, ← numberMark, hMark]
  refine ⟨more, rest.map String.ofList, ?_⟩
  rw [slashParts, hChars, hSplit hMore, List.map_append, List.map_cons]

namespace FileTree

variable {t : FileTree}

/-- A numbered path in use has an entry for its part with the number, in a directory that is the
same for all numbers. -/
theorem exists_entry_of_present {path : String} {before rest : List String} {part : String}
    (hParts : slashParts path = before ++ part :: rest) (hLong : 2 < part.length)
    (h : t.present path = true) :
    ∃ parts e, t.follow (some []) .directory before = .ok (.found (some parts) e) ∧
      key (parts ++ [part]) ∈ t := by
  obtain ⟨start, target, found, hStart, hFollow⟩ := follow_of_present h
  rw [hParts] at hFollow
  obtain ⟨middle, between, hBefore, hAfter⟩ := follow_append (List.cons_ne_nil _ _) hFollow
  have hOther : ∀ name : String, name.length ≤ 2 → part ≠ name := by
    rintro name hName rfl
    omega
  obtain ⟨parts, rfl, hEntry⟩ := entryAt_of_follow (hOther "" (by decide))
    (hOther "." (by decide)) (hOther ".." (by decide)) hAfter
  refine ⟨parts, between, ?_, ?_⟩
  · rcases hStart with rfl | rfl
    · cases follow_outside hBefore
    · exact hBefore
  · rw [entryAt, if_neg (by simp)] at hEntry
    rwa [Std.ExtTreeMap.mem_iff_isSome_getElem?]

/-- Not all numbers up to one more than there are entries are in use. -/
theorem exists_free_number (t : FileTree) {base : String} (h : ".csv".toList <:+: base.toList) :
    ∃ n, 1 ≤ n ∧ n ≤ t.size + 1 ∧ t.present (numberedPath base n) = false := by
  obtain ⟨before, stem, hParts⟩ := exists_slashParts_numberedPath h
  choose more rest hParts using hParts
  by_contra hNone
  have hUsed : ∀ n ∈ List.range' 1 (t.size + 1), t.present (numberedPath base n) = true := by
    intro n hn
    rw [List.mem_range'_1] at hn
    rw [← Bool.not_eq_false]
    exact fun hFree => hNone ⟨n, hn.1, by omega, hFree⟩
  have hLong : ∀ n, 2 < (String.ofList (stem ++ (numberMark n ++ more n))).length := by
    intro n
    rw [String.length_ofList, List.length_append, List.length_append, numberMark_eq,
      List.length_cons, List.length_cons, List.length_append, List.length_singleton]
    omega
  -- The directory that all of them are in is the one of the first number.
  obtain ⟨parts, e, hBefore, -⟩ :=
    exists_entry_of_present (hParts 1) (hLong 1) (hUsed 1 (by simp))
  obtain ⟨left, hKey⟩ := exists_key_concat parts
  let entry (n : Nat) : String := key (parts ++ [String.ofList (stem ++ (numberMark n ++ more n))])
  have hEntry : ∀ n ∈ List.range' 1 (t.size + 1), entry n ∈ t.keys := by
    intro n hn
    obtain ⟨parts', e', hBefore', hIn⟩ := exists_entry_of_present (hParts n) (hLong n) (hUsed n hn)
    rw [hBefore] at hBefore'
    cases hBefore'
    rwa [Std.ExtTreeMap.mem_keys]
  have hInjective : Function.Injective entry := by
    intro m n hSame
    have hChars := congrArg String.toList hSame
    simp only [entry, hKey, String.toList_ofList, ← List.append_assoc left stem] at hChars
    exact numberMark_inj hChars
  have hSub : (List.range' 1 (t.size + 1)).map entry ⊆ t.keys := by
    intro path hPath
    obtain ⟨n, hn, rfl⟩ := List.mem_map.1 hPath
    exact hEntry n hn
  have hNodup := (List.nodup_range' (s := 1) (n := t.size + 1)).map hInjective
  have hLength := (List.subperm_of_subset hNodup hSub).length_le
  rw [List.length_map, List.length_range', Std.ExtTreeMap.length_keys] at hLength
  omega

/-- The path that is chosen: the base, or the first numbered path that is not in use. -/
theorem freePath_cases (t : FileTree) {base : String} (h : ".csv".toList <:+: base.toList) :
    (t.present base = false ∧ t.freePath base = base) ∨
      (t.present base = true ∧ ∃ n, 1 ≤ n ∧ n ≤ t.size + 1 ∧
        t.freePath base = numberedPath base n ∧ t.present (numberedPath base n) = false ∧
        ∀ m, 1 ≤ m → m < n → t.present (numberedPath base m) = true) := by
  unfold freePath
  by_cases hBase : t.present base = true
  · rw [if_pos hBase]
    refine .inr ⟨hBase, ?_⟩
    cases hFind : t.pathNumbers.find? fun n => !t.present (numberedPath base n) with
    | none =>
        obtain ⟨n, hFirst, hLast, hFree⟩ := exists_free_number t h
        have hMem : n ∈ t.pathNumbers := by
          rw [pathNumbers, List.mem_range'_1]
          omega
        have hUsed := List.find?_eq_none.1 hFind n hMem
        rw [hFree] at hUsed
        exact absurd rfl hUsed
    | some n =>
        rw [pathNumbers, List.find?_range'_eq_some] at hFind
        obtain ⟨hFree, hMem, hBefore⟩ := hFind
        rw [List.mem_range'_1] at hMem
        exact ⟨n, hMem.1, by omega, rfl, by simpa using hFree, fun m hm hLt => by
          simpa using hBefore m hm hLt⟩
  · rw [if_neg hBase]
    exact .inl ⟨by simpa using hBase, rfl⟩

end FileTree

end SatLab
