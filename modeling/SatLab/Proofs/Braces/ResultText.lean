import Mathlib.Data.List.Nodup
import SatLab.Proofs.Search.InsertionOrder
import SatLab.Proofs.Text.Separated

/-! The text of a result determines the result, if no name has a space. The last character of an
assignment is a digit, so nothing of an entry is dropped at the end, and the spaces cut the text
into the entries. Entries are in the order of their names, whatever order they were inserted in. -/

namespace SatLab

namespace Assignment

variable {a b : Assignment}

theorem entryChars_ne_nil (entry : String × Bool) : entryChars entry ≠ [] := by
  simp [entryChars]

/-- The digit is the last character, so that names may have equals signs. -/
theorem entryChars_injective : Function.Injective entryChars := by
  rintro ⟨name, value⟩ ⟨name', value'⟩ h
  obtain ⟨hName, hDigit⟩ := List.append_inj' h rfl
  have hValue : value = value' := by
    cases value <;> cases value' <;> simp_all
  exact Prod.ext (String.toList_inj.1 hName) hValue

/-- The entries are cut apart where the spaces are. -/
theorem cutAt_chars (h : ∀ name ∈ a, ' ' ∉ name.toList) (hSome : a ≠ ∅) :
    cutAt ' ' (Assignment.chars a) = a.toList.map entryChars := by
  apply cutAt_joined
  · simpa using hSome
  · intro piece hPiece
    obtain ⟨⟨name, value⟩, hEntry, rfl⟩ := List.mem_map.1 hPiece
    have hName : name ∈ a := Assignment.mem_iff_exists_value.2
      ⟨value, Std.ExtTreeMap.mem_toList_iff_getElem?_eq_some.1 hEntry⟩
    intro hMem
    rcases List.mem_append.1 hMem with hIn | hDigit
    · exact h name hName hIn
    · cases value with
      | true => exact absurd hDigit (show ' ' ∉ ['=', '1'] by decide)
      | false => exact absurd hDigit (show ' ' ∉ ['=', '0'] by decide)

/-- Only the empty assignment is written as no text. -/
theorem chars_eq_nil_iff : Assignment.chars a = [] ↔ a = ∅ := by
  have hEntries : ∀ text ∈ a.toList.map entryChars, text ≠ [] := by
    intro text hText
    obtain ⟨entry, -, rfl⟩ := List.mem_map.1 hText
    exact entryChars_ne_nil entry
  rw [Assignment.chars, joined_eq_nil_iff hEntries, List.map_eq_nil_iff,
    Std.ExtTreeMap.toList_eq_nil_iff]

/-- Assignments of names without a space are told apart by their text. -/
theorem chars_injective (ha : ∀ name ∈ a, ' ' ∉ name.toList) (hb : ∀ name ∈ b, ' ' ∉ name.toList)
    (h : Assignment.chars a = Assignment.chars b) : a = b := by
  by_cases hSome : a = ∅
  · have hNil := chars_eq_nil_iff.2 hSome
    rw [h, chars_eq_nil_iff] at hNil
    rw [hSome, hNil]
  · have hSome' : b ≠ ∅ := fun hNone =>
      hSome (chars_eq_nil_iff.1 (h.trans (chars_eq_nil_iff.2 hNone)))
    have hCut := cutAt_chars ha hSome
    rw [h, cutAt_chars hb hSome'] at hCut
    exact Std.ExtTreeMap.ext_toList (List.Perm.of_eq (entryChars_injective.list_map hCut.symm))

end Assignment

/-! ### The end of the text -/

/-- The last of some texts ends what they are joined to. -/
theorem joined_concat (separator : List Char) (texts : List (List Char)) (last : List Char) :
    ∃ before, joined separator (texts ++ [last]) = before ++ last := by
  induction texts with
  | nil => exact ⟨[], joined_singleton _ _⟩
  | cons text texts ih =>
      obtain ⟨before, hRest⟩ := ih
      refine ⟨text ++ (separator ++ before), ?_⟩
      rw [List.cons_append, joined_cons (by simp), hRest]
      simp

/-- Trimming stops at a character that is no blank. -/
theorem trimBlanksRight_concat {c : Char} (h : isBlank c = false) (text : List Char) :
    trimBlanksRight (text ++ [c]) = text ++ [c] := by
  rw [trimBlanksRight, List.reverse_concat, List.dropWhile_cons_of_neg (by simp [h]),
    List.reverse_cons, List.reverse_reverse]

/-- The text of an assignment ends in a value, which is no blank. -/
theorem Assignment.chars_end {a : Assignment} (hSome : a ≠ ∅) :
    ∃ before digit, isBlank digit = false ∧ Assignment.chars a = before ++ [digit] := by
  have hNil : a.toList ≠ [] := fun h => hSome (Std.ExtTreeMap.toList_eq_nil_iff.1 h)
  obtain ⟨entries, last, hEntries⟩ := (List.eq_nil_or_concat a.toList).resolve_left hNil
  obtain ⟨before, hBefore⟩ := joined_concat [' '] (entries.map entryChars) (entryChars last)
  have hDigits : ∀ value : Bool, isBlank (if value then '1' else '0') = false := by decide
  refine ⟨before ++ (last.1.toList ++ ['=']), _, hDigits last.2, ?_⟩
  rw [Assignment.chars, hEntries, List.concat_eq_append, List.map_append, List.map_singleton,
    hBefore, entryChars]
  simp

/-- Nothing is dropped behind the last entry. -/
theorem resultText_of_ne_empty {a : Assignment} (hSome : a ≠ ∅) :
    resultText (some a) = "SAT: " ++ a.text := by
  obtain ⟨before, digit, hDigit, hChars⟩ := Assignment.chars_end hSome
  rw [resultText, hChars, ← List.append_assoc, trimBlanksRight_concat hDigit, List.append_assoc,
    ← hChars, Assignment.text, String.ofList_append, String.ofList_toList]

/-- Without entries the space is dropped, so it tells whether there are any. -/
theorem toList_resultText (a : Assignment) : (resultText (some a)).toList =
    "SAT:".toList ++ if a = ∅ then [] else ' ' :: Assignment.chars a := by
  split
  · next hNone =>
      rw [hNone]
      rfl
  · next hSome =>
      rw [resultText_of_ne_empty hSome, Assignment.text]
      simp

/-- Trimming the printed result merges no two assignments. -/
theorem chars_eq_of_resultText_eq {a b : Assignment}
    (h : resultText (some a) = resultText (some b)) :
    Assignment.chars a = Assignment.chars b := by
  have hTexts := congrArg String.toList h
  rw [toList_resultText, toList_resultText, List.append_right_inj] at hTexts
  split at hTexts
  · next hNone =>
      split at hTexts
      · next hNone' => rw [hNone, hNone']
      · cases hTexts
  · split at hTexts
    · cases hTexts
    · exact (List.cons.inj hTexts).2

/-- A model is never printed as the answer that there is none. -/
theorem resultText_some_ne_none (a : Assignment) : resultText (some a) ≠ resultText none := by
  intro h
  have hTexts := congrArg String.toList h
  rw [toList_resultText] at hTexts
  exact absurd (List.cons.inj hTexts).1 (by decide)

/-! ### The order of the entries -/

namespace Insertions

variable {made made' : Insertions}

def byName (x y : String × Bool) : Bool := decide (x.1 ≤ y.1)

/-- The text of a result whose entries are in the order they were inserted in. They are sorted when
they are written. -/
def printed (made : Insertions) : String :=
  String.ofList (trimBlanksRight
    ("SAT: ".toList ++ joined [' '] ((made.mergeSort byName).map Assignment.entryChars)))

theorem lookup_eq_some_iff (h : (made.map Prod.fst).Nodup) {name : String} {value : Bool} :
    made.lookup name = some value ↔ (name, value) ∈ made := by
  induction made with
  | nil => simp
  | cons entry made ih =>
      rw [List.map_cons, List.nodup_cons] at h
      rw [List.lookup_cons, List.mem_cons]
      by_cases hSame : name = entry.1
      · have hNew : (name, value) ∉ made := fun hMem =>
          h.1 (hSame ▸ List.mem_map_of_mem hMem)
        rw [beq_iff_eq.2 hSame, or_iff_left hNew]
        simp [Prod.ext_iff, hSame, eq_comm]
      · rw [beq_false_of_ne hSame]
        simp [ih h.2, Prod.ext_iff, hSame]

/-- The assignment made by insertions of distinct names has exactly their entries. -/
theorem mem_toList_assignment (h : (made.map Prod.fst).Nodup) (entry : String × Bool) :
    entry ∈ made.assignment.toList ↔ entry ∈ made := by
  rw [← lookup_eq_some_iff h, made.make_assignment entry.1]
  exact Std.ExtTreeMap.mem_toList_iff_getElem?_eq_some

theorem forall_mem_assignment (h : (made.map Prod.fst).Nodup) {p : String → Prop}
    (hEntries : ∀ entry ∈ made, p entry.1) : ∀ name ∈ made.assignment, p name := by
  intro name hName
  obtain ⟨value, hValue⟩ := Assignment.mem_iff_exists_value.1 hName
  exact hEntries _ ((mem_toList_assignment h (name, value)).1
    (Std.ExtTreeMap.mem_toList_iff_getElem?_eq_some.2 hValue))

/-- The assignment has the insertions in the order of their names. -/
theorem toList_assignment (h : (made.map Prod.fst).Nodup) :
    made.assignment.toList = made.mergeSort byName := by
  have hOrdered : made.assignment.toList.Pairwise fun x y => compare x.1 y.1 = .lt :=
    Std.ExtTreeMap.ordered_keys_toList
  have hSorted : made.assignment.toList.Pairwise fun x y => byName x y = true :=
    hOrdered.imp fun hLess => decide_eq_true (Std.le_of_lt (compareOfLessAndEq_eq_lt.1 hLess))
  have hTrans : ∀ x y z : String × Bool, byName x y → byName y z → byName x z := by
    simpa [byName] using fun _ _ _ => Std.le_trans
  have hTotal : ∀ x y : String × Bool, byName x y || byName y x := by
    simpa [byName] using fun _ _ => Std.le_total
  have hMerged := List.pairwise_mergeSort hTrans hTotal made
  have hEntries : made.assignment.toList.Nodup :=
    hOrdered.imp fun hLess hSame => by simp [hSame] at hLess
  have hPerm : made.assignment.toList.Perm (made.mergeSort byName) := by
    refine ((List.perm_ext_iff_of_nodup hEntries h.of_map).2 ?_).trans (List.mergeSort_perm ..).symm
    exact mem_toList_assignment h
  refine List.Perm.eq_of_pairwise (fun x y hx hy hLe hGe => ?_) hSorted hMerged hPerm
  have hName : x.1 = y.1 := Std.le_antisymm (of_decide_eq_true hLe) (of_decide_eq_true hGe)
  exact List.inj_on_of_nodup_map h ((mem_toList_assignment h x).1 hx)
    (List.mem_mergeSort.1 hy) hName

/-- Printing the entries in any order they were inserted in is printing the assignment. -/
theorem printed_eq (h : (made.map Prod.fst).Nodup) :
    made.printed = resultText (some made.assignment) := by
  rw [printed, resultText, Assignment.chars, toList_assignment h]

/-- Insertions in another order make the same assignment. -/
theorem assignment_eq_of_perm (h : (made.map Prod.fst).Nodup) (hPerm : made'.Perm made) :
    made'.assignment = made.assignment := by
  have h' : (made'.map Prod.fst).Nodup := (hPerm.map _).nodup_iff.2 h
  apply Std.ExtTreeMap.ext_toList
  rw [toList_assignment h', toList_assignment h]
  exact (List.mergeSort_perm ..).trans (hPerm.trans (List.mergeSort_perm ..).symm)

/-- The order of the insertions does not show in what is printed. -/
theorem printed_eq_of_perm (h : (made.map Prod.fst).Nodup) (hPerm : made'.Perm made) :
    made'.printed = made.printed := by
  rw [printed_eq ((hPerm.map _).nodup_iff.2 h), printed_eq h, assignment_eq_of_perm h hPerm]

end Insertions

/-- Two results with the same text are the same, if no name has a space; other characters do not
matter. Of an entry nothing is dropped at the end of the text, and the text is the one of the
entries in the order of their names, whatever order they were inserted in. -/
theorem resultText_unambiguous :
    (∀ x y : Option Assignment, (∀ a ∈ x, ∀ name ∈ a, ' ' ∉ name.toList) →
      (∀ a ∈ y, ∀ name ∈ a, ' ' ∉ name.toList) → resultText x = resultText y → x = y) ∧
      (∀ a : Assignment, a ≠ ∅ → resultText (some a) = "SAT: " ++ a.text) ∧
      ∀ made : Insertions, (made.map Prod.fst).Nodup →
        made.printed = resultText (some made.assignment) ∧
          ∀ made' : Insertions, made'.Perm made → made'.printed = made.printed := by
  refine ⟨fun x y hx hy h => ?_, fun a => resultText_of_ne_empty, fun made hNames =>
    ⟨Insertions.printed_eq hNames, fun made' => Insertions.printed_eq_of_perm hNames⟩⟩
  cases x with
  | none =>
      cases y with
      | none => rfl
      | some b => exact absurd h.symm (resultText_some_ne_none b)
  | some a =>
      cases y with
      | none => exact absurd h (resultText_some_ne_none a)
      | some b =>
          have hChars := chars_eq_of_resultText_eq h
          rw [Assignment.chars_injective (hx a rfl) (hy b rfl) hChars]

/-- Names that look like entries. -/
def lookalikes : Insertions := [("a=1", false), ("a", true), ("-=", true)]

/-- In another order they are the same assignment, since they have the same text. -/
theorem resultText_unambiguous_lookalikes :
    let made : Insertions := [("-=", true), ("a", true), ("a=1", false)]
    (lookalikes.map Prod.fst).Nodup ∧ made.printed = lookalikes.printed ∧
      resultText (some lookalikes.assignment) = "SAT: -==1 a=1 a=1=0" ∧
      some made.assignment = some lookalikes.assignment := by
  intro made
  obtain ⟨hInjective, hEnd, hOrder⟩ := resultText_unambiguous
  have hNames : (lookalikes.map Prod.fst).Nodup := by decide
  have hNames' : (made.map Prod.fst).Nodup := by decide
  have hText : made.printed = lookalikes.printed := (hOrder _ hNames).2 _ (by decide)
  have hSpaces : ∀ names : Insertions, (names.map Prod.fst).Nodup →
      (∀ entry ∈ names, ' ' ∉ entry.1.toList) →
      ∀ a ∈ some names.assignment, ∀ name ∈ a, ' ' ∉ name.toList := by
    rintro names hDistinct hEntries _ ⟨⟩
    exact Insertions.forall_mem_assignment hDistinct hEntries
  refine ⟨hNames, hText, by decide +kernel, ?_⟩
  apply hInjective
  · exact hSpaces made hNames' (by decide)
  · exact hSpaces lookalikes hNames (by decide)
  · rw [← (hOrder _ hNames).1, ← (hOrder _ hNames').1, hText]

end SatLab
