import SatLab.Proofs.Document.Numeral
import SatLab.Proofs.Sheet.Engine

/-! The types of columns. A portion of a column with prose in it, which is no integer, number, or
flag, is text, and one of natural numbers of 63 bits has integers. Portions of one type are joined
as they are. -/

namespace SatLab

namespace Sheet

/-- How a word is read among the words that are typed with it. -/
def cellAmong (words : List (List Char)) (word : List Char) : Cell :=
  let known := words.filter fun w => !isMissingWord w
  let gaps := decide (known.length < words.length)
  (ColumnType.ofWords known gaps).cell gaps word

theorem portionCells_snd (words : List (List Char)) :
    (portionCells words).2 = words.map (cellAmong words) := rfl

/-! ### Portions -/

section Parts

variable {α β : Type} {size bound : Nat} {xs : List α}

/-- Cutting a list into parts loses nothing. -/
theorem flatten_partsOf (hBound : xs.length ≤ bound) : (partsOf size bound xs).flatten = xs := by
  induction bound generalizing xs with
  | zero =>
      rw [List.eq_nil_of_length_eq_zero (Nat.le_zero.1 hBound)]
      rfl
  | succ bound ih =>
      cases xs with
      | nil => rfl
      | cons x xs =>
          have hRest : ((x :: xs).drop (max 1 size)).length ≤ bound := by
            rw [List.length_drop]
            omega
          rw [partsOf, List.flatten_cons, ih hRest, List.take_append_drop]

theorem partsOf_nil : partsOf size bound ([] : List α) = [] := by
  cases bound <;> rfl

/-- A short list is one part. -/
theorem partsOf_of_le (hSome : xs ≠ []) (hBound : 0 < bound) (hSize : xs.length ≤ size) :
    partsOf size bound xs = [xs] := by
  obtain ⟨bound, rfl⟩ := Nat.exists_eq_add_one_of_ne_zero hBound.ne'
  cases xs with
  | nil => exact absurd rfl hSome
  | cons x xs =>
      have hAll : (x :: xs).length ≤ max 1 size := hSize.trans (Nat.le_max_right 1 size)
      rw [partsOf, List.take_of_length_le hAll, List.drop_of_length_le hAll, partsOf_nil]

/-- A full part stands before the others. -/
theorem partsOf_append {ys : List α} (hSome : xs ≠ []) (hSize : xs.length = size) :
    partsOf size (bound + 1) (xs ++ ys) = xs :: partsOf size bound ys := by
  cases xs with
  | nil => exact absurd rfl hSome
  | cons x xs =>
      have hFull : max 1 size = (x :: xs).length := by
        rw [hSize, Nat.max_eq_right]
        rw [← hSize]
        exact Nat.succ_pos _
      rw [List.cons_append, partsOf, ← List.cons_append, hFull, List.take_left, List.drop_left]

theorem partsOf_map (f : α → β) (size bound : Nat) (xs : List α) :
    partsOf size bound (xs.map f) = (partsOf size bound xs).map (List.map f) := by
  induction bound generalizing xs with
  | zero => simp [partsOf]
  | succ bound ih =>
      cases xs with
      | nil => rfl
      | cons x xs =>
          simp only [List.map_cons, partsOf]
          rw [← List.map_cons, ← List.map_take, ← List.map_drop, ih]

/-- What is in a part is in the list. -/
theorem mem_of_mem_partsOf {part : List α} (hPart : part ∈ partsOf size xs.length xs) {x : α}
    (hx : x ∈ part) : x ∈ xs := by
  have hAll : (partsOf size xs.length xs).flatten = xs := flatten_partsOf (Nat.le_refl _)
  rw [← hAll]
  exact List.mem_flatten_of_mem hPart hx

end Parts

theorem adjustedTo_missing (types : List (Option ColumnType)) :
    Cell.adjustedTo types .missing = .missing := by
  unfold Cell.adjustedTo
  split_ifs <;> rfl

/-- Integers stay as they are if every portion has integers. -/
theorem adjustedTo_signed {types : List (Option ColumnType)}
    (h : ∀ type ∈ types, type = some .signed)
    (value : Int64) : Cell.adjustedTo types (.signed value) = .signed value := by
  have hNot : ∀ other, other ≠ some .signed → types.contains other = false := by
    intro other hOther
    rw [Bool.eq_false_iff, Ne, List.contains_iff_mem]
    exact fun hMem => hOther (h other hMem)
  rw [Cell.adjustedTo, hNot none (by decide), hNot (some .real) (by decide),
    hNot (some .unsigned) (by decide)]
  split_ifs <;> rfl

/-- If every portion gives the cells of its words, and joining does not change them, so does the
column. -/
theorem column_map {α : Type} {size : Nat} {items : List α} {word : α → List Char} {f : α → Cell}
    (hCells : ∀ part ∈ partsOf size items.length items,
      (portionCells (part.map word)).2 = part.map f)
    (hSame : ∀ item ∈ items, Cell.adjustedTo ((partsOf size items.length items).map fun part =>
      (portionCells (part.map word)).1) (f item) = f item) :
    column size (items.map word) = items.map f := by
  have hAll : ((partsOf size items.length items).flatMap fun part =>
      (portionCells (part.map word)).2) = items.map f := by
    rw [List.flatMap_def, List.map_congr_left hCells, ← List.map_flatten,
      flatten_partsOf (Nat.le_refl _)]
  rw [column, List.length_map, partsOf_map]
  simp only [List.map_map, List.flatMap_map, Function.comp_def, hAll]
  exact List.map_congr_left hSame

/-- A column of two portions, of which the first one is full. -/
theorem column_append {size : Nat} {words others : List (List Char)} (hSome : words ≠ [])
    (hSize : words.length = size) (hOthers : others ≠ []) (hFew : others.length ≤ size) :
    column size (words ++ others) =
      ((portionCells words).2 ++ (portionCells others).2).map
        (Cell.adjustedTo [(portionCells words).1, (portionCells others).1]) := by
  have hWords := List.length_pos_iff.2 hSome
  have hRest := List.length_pos_iff.2 hOthers
  obtain ⟨bound, hBound⟩ : ∃ bound, (words ++ others).length = bound + 1 :=
    Nat.exists_eq_add_one_of_ne_zero (by rw [List.length_append]; omega)
  have hFewer : 0 < bound := by
    rw [List.length_append] at hBound
    omega
  rw [column, hBound, partsOf_append hSome hSize, partsOf_of_le hOthers hFewer hFew]
  simp

namespace ColumnType

/-- One word that is no integer keeps a portion from being one of integers. -/
theorem wholeFit_ne_fits {low high : Int} {words : List (List Char)} {word : List Char}
    (hMem : word ∈ words) (hWord : ∀ n, readInteger low high word ≠ .value n) :
    wholeFit low high words ≠ .fits := by
  induction words with
  | nil => cases hMem
  | cons first words ih =>
      rw [wholeFit]
      cases hFirst : readInteger low high first with
      | value n =>
          rcases List.mem_cons.1 hMem with rfl | hRest
          · exact absurd hFirst (hWord n)
          · exact ih hRest
      | outside => simp
      | none => simp

section Prose

variable {words : List (List Char)} {word : List Char} (hMem : word ∈ words)
  (hProse : IsProse word)

include hMem hProse

/-- Prose beside other words makes a portion text. -/
theorem ofOtherWords_of_prose : ofOtherWords words = text := by
  have hReal : ¬(words.all fun w => (readReal? w).isSome) = true := by
    intro hAll
    simpa [hProse.real] using List.all_eq_true.1 hAll word hMem
  have hFlag : ¬(words.all fun w => (readFlag? w).isSome) = true := by
    intro hAll
    simpa [hProse.flag] using List.all_eq_true.1 hAll word hMem
  rw [ofOtherWords, if_neg hReal, if_neg hFlag]

/-- A portion with prose keeps its words, as text or as they are. -/
theorem ofWords_of_prose (gaps : Bool) :
    ofWords words gaps = text ∨ ofWords words gaps = verbatim := by
  have hOther := ofOtherWords_of_prose hMem hProse
  rw [ofWords]
  cases hSigned : wholeFit signedLow signedHigh words with
  | fits => exact absurd hSigned (wholeFit_ne_fits hMem fun n => hProse.integer _ _ n)
  | none => exact .inl hOther
  | outside =>
      simp only [ofLargeWords]
      cases hPlain : wholeFit 0 unsignedHigh (words.filter fun w => !isSigned w) with
      | none => exact .inl hOther
      | outside => exact .inl rfl
      | fits =>
          -- The word itself is not among those that were looked at, so it has a sign.
          have hSign : isSigned word = true := by
            rw [← Bool.not_eq_false]
            intro hNone
            have hIn : word ∈ words.filter fun w => !isSigned w := by simp [hMem, hNone]
            exact wholeFit_ne_fits hIn (fun n => hProse.integer _ _ n) hPlain
          have hMixed : words.any isSigned = true := List.any_eq_true.2 ⟨word, hMem, hSign⟩
          simp only [hMixed]
          split
          · exact .inr rfl
          · exact .inl rfl

end Prose

theorem ofOtherWords_ne_verbatim (words : List (List Char)) : ofOtherWords words ≠ verbatim := by
  unfold ofOtherWords
  split_ifs <;> exact nofun

/-- Only beside a large integer the words for a missing cell are words like any other. -/
theorem exists_integer_of_verbatim {words : List (List Char)} {gaps : Bool}
    (h : ofWords words gaps = verbatim) :
    ∃ word ∈ words, ∃ n, readInteger 0 unsignedHigh word = .value n := by
  rw [ofWords] at h
  cases hSigned : wholeFit signedLow signedHigh words with
  | fits => simp [hSigned] at h
  | none => exact absurd (by simpa [hSigned] using h) (ofOtherWords_ne_verbatim words)
  | outside =>
      simp only [hSigned, ofLargeWords] at h
      cases hPlain : words.filter fun w => !isSigned w with
      | nil => split_ifs at h <;> simp [hPlain, wholeFit] at *
      | cons word rest =>
          have hMem : word ∈ words := List.mem_of_mem_filter (hPlain ▸ List.mem_cons_self)
          cases hRead : readInteger 0 unsignedHigh word with
          | value n => exact ⟨word, hMem, n, hRead⟩
          | outside => simp [hPlain, wholeFit, hRead] at h
          | none =>
              exact absurd (by simpa [hPlain, wholeFit, hRead] using h)
                (ofOtherWords_ne_verbatim words)

/-- Words that are all prose are text. -/
theorem ofWords_of_all_prose {words : List (List Char)} (hSome : words ≠ [])
    (h : ∀ word ∈ words, IsProse word) (gaps : Bool) : ofWords words gaps = text := by
  obtain ⟨word, hMem⟩ := List.exists_mem_of_ne_nil _ hSome
  refine (ofWords_of_prose hMem (h word hMem) gaps).resolve_right fun hVerbatim => ?_
  obtain ⟨other, hOther, n, hRead⟩ := exists_integer_of_verbatim hVerbatim
  exact (h other hOther).integer _ _ n hRead

end ColumnType

/-! ### Prose -/

/-- Prose and words for missing cells: all cells are missing, or they are kept one by one. -/
theorem portionCells_of_prose {words : List (List Char)}
    (h : ∀ word ∈ words, IsProse word ∨ isMissingWord word = true) :
    (portionCells words).2 = words.map wordCell ∧
      ((portionCells words).1 = none ∨ ∀ word ∈ words, isMissingWord word = true) := by
  by_cases hKnown : (words.filter fun w => !isMissingWord w) = []
  · have hAll : ∀ word ∈ words, isMissingWord word = true := by
      simpa [List.filter_eq_nil_iff] using hKnown
    refine ⟨?_, .inr hAll⟩
    rw [portionCells_snd]
    apply List.map_congr_left
    intro word hWord
    have hSigned : ColumnType.signed ≠ .verbatim := by decide
    simp [cellAmong, ColumnType.cell, hKnown, hAll word hWord, wordCell, ColumnType.ofWords,
      ColumnType.wholeFit, hSigned]
  · have hProse : ∀ word ∈ words.filter fun w => !isMissingWord w, IsProse word := by
      intro word hWord
      obtain ⟨hMem, hNot⟩ := List.mem_filter.1 hWord
      exact (h word hMem).resolve_right (by simpa using hNot)
    have hType := ColumnType.ofWords_of_all_prose hKnown hProse
    refine ⟨?_, .inl ?_⟩
    · rw [portionCells_snd]
      apply List.map_congr_left
      intro word _
      have hText : ColumnType.text ≠ .verbatim := by decide
      simp [cellAmong, ColumnType.cell, hType, wordCell, ColumnType.knownCell, hText]
    · simp [portionCells, hType, ColumnType.stored]

/-- A column of prose and missing values is read word by word, whatever its portions are. -/
theorem column_of_prose {words : List (List Char)} (size : Nat)
    (h : ∀ word ∈ words, IsProse word ∨ isMissingWord word = true) :
    column size words = words.map wordCell := by
  have hParts : ∀ part ∈ partsOf size words.length words,
      (portionCells part).2 = part.map wordCell ∧
        ((portionCells part).1 = none ∨ ∀ word ∈ part, isMissingWord word = true) :=
    fun part hPart => portionCells_of_prose fun word hWord => h word (mem_of_mem_partsOf hPart hWord)
  conv_lhs => rw [← List.map_id words]
  refine column_map (fun part hPart => by rw [List.map_id]; exact (hParts part hPart).1)
    fun word hWord => ?_
  simp only [List.map_id]
  by_cases hNone : none ∈ (partsOf size words.length words).map fun part => (portionCells part).1
  · rw [Cell.adjustedTo, if_pos (List.contains_iff_mem.2 hNone)]
    rfl
  · -- No portion has prose, so all its words stand for missing cells.
    obtain ⟨part, hPart, hIn⟩ : ∃ part ∈ partsOf size words.length words, word ∈ part := by
      rw [← List.mem_flatten, flatten_partsOf (Nat.le_refl _)]
      exact hWord
    have hMissing := (hParts part hPart).2.resolve_left fun hFirst =>
      hNone (List.mem_map.2 ⟨part, hPart, hFirst⟩)
    rw [wordCell, if_pos (hMissing word hIn), adjustedTo_missing]

/-- Among words of which one is prose and none stands for a missing cell, every word is text. -/
theorem column_of_mixed {words : List (List Char)} {size : Nat} (hSize : words.length ≤ size)
    (hKnown : ∀ word ∈ words, isMissingWord word = false) (hProse : ∃ word ∈ words, IsProse word) :
    column size words = words.map wordCell := by
  obtain ⟨prose, hMem, hProse⟩ := hProse
  have hAll : (words.filter fun w => !isMissingWord w) = words := by
    rw [List.filter_eq_self]
    intro word hWord
    simp [hKnown word hWord]
  have hPortion : partsOf size words.length words = [words] :=
    partsOf_of_le (List.ne_nil_of_mem hMem) (List.length_pos_of_mem hMem) hSize
  have hType := ColumnType.ofWords_of_prose hMem hProse false
  conv_lhs => rw [← List.map_id words]
  apply column_map
  · rw [hPortion, List.forall_mem_singleton, List.map_id, portionCells_snd]
    apply List.map_congr_left
    intro word hWord
    simp only [cellAmong, hAll, Nat.lt_irrefl, decide_false, ColumnType.cell, hKnown word hWord,
      Bool.false_eq_true, false_and, if_false, wordCell]
    rcases hType with hType | hType <;> simp [hType, ColumnType.knownCell]
  · intro word _
    have hNone : (portionCells words).1 = none := by
      simp only [portionCells, hAll, Nat.lt_irrefl, decide_false]
      rcases hType with hType | hType <;> simp [hType, ColumnType.stored]
    simp [hPortion, Cell.adjustedTo, hNone]

/-! ### Natural numbers -/

theorem not_blank_of_isDigit {c : Char} (h : c.isDigit = true) : isNumberBlank c = false := by
  have hLow : '0' ≤ c := by
    simp [Char.isDigit] at h
    exact h.1
  simp only [isNumberBlank, Bool.or_eq_false_iff, decide_eq_false_iff_not, beq_eq_false_iff_ne]
  constructor
  · rintro rfl
    exact absurd hLow (by decide)
  · rintro ⟨-, hHigh⟩
    exact absurd (Char.le_trans hLow hHigh) (by decide)

/-- Digits with nothing around them. -/
theorem digits_parts {digits : List Char} (h : ∀ c ∈ digits, c.isDigit = true) :
    digits.dropWhile isNumberBlank = digits ∧ splitSign digits = (false, digits) ∧
      digits.takeWhile Char.isDigit = digits ∧ digits.dropWhile Char.isDigit = [] := by
  have hSpan : (digits ++ []).takeWhile Char.isDigit = digits ∧
      (digits ++ []).dropWhile Char.isDigit = [] := Numeral.span_digits h (by rintro _ ⟨⟩)
  rw [List.append_nil] at hSpan
  refine ⟨?_, ?_, hSpan⟩
  · cases digits with
    | nil => rfl
    | cons c digits => simp [not_blank_of_isDigit (h c List.mem_cons_self)]
  · unfold splitSign
    split
    · exact absurd (h '-' List.mem_cons_self) (by decide)
    · exact absurd (h '+' List.mem_cons_self) (by decide)
    · rfl

section Naturals

variable {low high : Int} {ns : List Nat} {n : Nat}

theorem isDigit_of_mem {c : Char} (h : c ∈ Nat.toDigits 10 n) : c.isDigit = true :=
  Nat.isDigit_of_mem_toDigits (by decide) (by decide) h

/-- The decimal of a number is read as the number, if it is in the range. -/
theorem readInteger_toDigits (low high : Int) (n : Nat) : readInteger low high (Nat.toDigits 10 n) =
    if (n : Int) < low ∨ high < n then .outside else .value n := by
  obtain ⟨hBlanks, hSign, hTake, hDrop⟩ := digits_parts fun c hc => isDigit_of_mem (n := n) hc
  have hSome : (Nat.toDigits 10 n).isEmpty = false := by simp
  simp [readInteger, hBlanks, hSign, hTake, hDrop, hSome, Nat.ofDigitChars_ten_toDigits]

theorem isMissingWord_toDigits (n : Nat) : isMissingWord (Nat.toDigits 10 n) = false := by
  have hWords : missingWords.all (fun word =>
      word.toList.isEmpty || word.toList.any fun c => !c.isDigit) = true := by decide
  rw [← Bool.not_eq_true]
  intro hMissing
  simp only [isMissingWord, List.contains_iff_mem] at hMissing
  have hWord := List.all_eq_true.1 hWords _ hMissing
  rw [String.toList_ofList, Bool.or_eq_true] at hWord
  rcases hWord with hNone | hOther
  · simp at hNone
  · obtain ⟨c, hMem, hDigit⟩ := List.any_eq_true.1 hOther
    simp [isDigit_of_mem hMem] at hDigit

/-- Decimals fit in a range exactly when each of them does. -/
theorem wholeFit_toDigits (hLow : low ≤ 0) (ns : List Nat) :
    ColumnType.wholeFit low high (ns.map (Nat.toDigits 10)) =
      if ∀ n ∈ ns, (n : Int) ≤ high then .fits else .outside := by
  induction ns with
  | nil => simp [ColumnType.wholeFit]
  | cons n ns ih =>
      have hSign : ¬(n : Int) < low := by omega
      rw [List.map_cons, ColumnType.wholeFit, readInteger_toDigits]
      by_cases hHigh : high < (n : Int)
      · simp [hHigh, Int.not_le.2 hHigh]
      · simp [hHigh, hSign, ih, Int.not_lt.1 hHigh]

/-- Natural numbers of 63 bits are signed integers. -/
theorem portionCells_toDigits (hSmall : ∀ n ∈ ns, n < 2 ^ 63) :
    portionCells (ns.map (Nat.toDigits 10)) =
      (some .signed, ns.map fun n => .signed (.ofNat n)) := by
  have hKnown : (ns.map (Nat.toDigits 10)).filter (fun w => !isMissingWord w) =
      ns.map (Nat.toDigits 10) := by
    rw [List.filter_eq_self, List.forall_mem_map]
    simp [isMissingWord_toDigits]
  have hHigh : ∀ n ∈ ns, (n : Int) ≤ ColumnType.signedHigh := by
    intro n hn
    have hBound := hSmall n hn
    show (n : Int) ≤ 2 ^ 63 - 1
    omega
  have hType : ColumnType.ofWords (ns.map (Nat.toDigits 10)) false = .signed := by
    rw [ColumnType.ofWords, wholeFit_toDigits (by decide), if_pos hHigh]
  simp only [portionCells, hKnown, Nat.lt_irrefl, decide_false, hType, ColumnType.stored,
    Bool.false_eq_true, if_false, List.map_map, Prod.mk.injEq, true_and]
  apply List.map_congr_left
  intro n hn
  have hFits : ¬((n : Int) < ColumnType.signedLow ∨ ColumnType.signedHigh < n) := by
    have hLow : ColumnType.signedLow ≤ 0 := by decide
    have := hHigh n hn
    omega
  simp [ColumnType.cell, isMissingWord_toDigits, ColumnType.knownCell, readInteger_toDigits, hFits,
    Int64.ofInt_eq_ofNat]

/-- A column of decimals below `2 ^ 63` is read as these integers, whatever its portions are. -/
theorem column_toDigits (size : Nat) (hSmall : ∀ n ∈ ns, n < 2 ^ 63) :
    column size (ns.map (Nat.toDigits 10)) = ns.map fun n => .signed (.ofNat n) := by
  have hParts : ∀ part ∈ partsOf size ns.length ns, portionCells (part.map (Nat.toDigits 10)) =
      (some .signed, part.map fun n => .signed (.ofNat n)) := fun part hPart =>
    portionCells_toDigits fun n hn => hSmall n (mem_of_mem_partsOf hPart hn)
  apply column_map
  · intro part hPart
    rw [hParts part hPart]
  · intro n _
    refine adjustedTo_signed (List.forall_mem_map.2 fun part hPart => ?_) _
    rw [hParts part hPart]

end Naturals

end Sheet

end SatLab
