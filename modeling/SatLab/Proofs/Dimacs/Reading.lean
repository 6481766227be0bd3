import Mathlib
import SatLab.Proofs.Dimacs.Layout
import SatLab.Proofs.Text.Utf8
import SatLab.Storage.FormulaFile

/-! Reading a DIMACS file gives the clauses that its text lays out, in whatever way it does so.
Line by line the reader takes in just the integers of the page, and over integers its state is the
closed clauses with the literals of the open one. -/

namespace SatLab

theorem decimalDigit?_of_isDigit {c : Char} (h : c.isDigit = true) :
    decimalDigit? c = some (c.toNat - '0'.toNat) := by
  have hRange : 48 ≤ c.toNat ∧ c.toNat ≤ 57 := by
    simpa [Char.isDigit, UInt32.le_iff_toNat_le] using h
  have hFind : digitZeros.find? (fun first => first ≤ c.toNat && c.toNat ≤ first + 9) =
      some 0x30 := by
    rw [digitZeros, List.find?_cons_of_pos]
    simpa using ⟨hRange.1, by omega⟩
  rw [decimalDigit?, hFind]
  rfl

/-- The value of ASCII digits is the usual one. -/
theorem decimalValue_of_isDigit {digits : List Char} (h : ∀ c ∈ digits, c.isDigit = true) :
    decimalValue digits = Nat.ofDigitChars 10 digits 0 := by
  have hFold : ∀ value, digits.foldl (fun value c => 10 * value + (decimalDigit? c).getD 0) value =
      Nat.ofDigitChars 10 digits value := by
    induction digits with
    | nil => simp
    | cons c digits ih =>
        rw [List.forall_mem_cons] at h
        intro value
        rw [List.foldl_cons, ih h.2, Nat.ofDigitChars_cons, decimalDigit?_of_isDigit h.1]
        rfl
  exact hFold 0

namespace Dimacs

/-- The numeral that the scan finds for an integer. -/
def scanned (zeros : Nat) (k : Int) : Numeral :=
  { negative := decide (k < 0), digits := List.replicate zeros '0' ++ Nat.toDigits 10 k.natAbs }

section Scan

variable {current : Option Numeral} {minus : Bool} {c : Char} {rest : List Char}

theorem isDecimalDigit_of_isDigit (h : c.isDigit = true) : isDecimalDigit c = true := by
  rw [isDecimalDigit, decimalDigit?_of_isDigit h]
  rfl

/-- White space is no part of a number. -/
theorem not_part_of_isGap (h : IsGap c) : isDecimalDigit c = false ∧ (c == '-') = false := by
  have hBlank := List.contains_iff_mem.1 h.1
  have hAll : ∀ code ∈ blankCodes, code ≠ '-'.toNat ∧
      digitZeros.find? (fun first => first ≤ code && code ≤ first + 9) = none := by decide
  obtain ⟨hMinus, hFind⟩ := hAll c.toNat hBlank
  constructor
  · rw [isDecimalDigit, decimalDigit?, hFind]
    rfl
  · exact beq_false_of_ne fun hEq => hMinus (hEq ▸ rfl)

/-- Blanks between numbers are passed over. -/
theorem numeralsFrom_gap {gap : List Char} (h : ∀ c ∈ gap, IsGap c) (rest : List Char) :
    numeralsFrom none false (gap ++ rest) = numeralsFrom none false rest := by
  induction gap with
  | nil => rfl
  | cons c gap ih =>
      rw [List.forall_mem_cons] at h
      obtain ⟨hDigit, hMinus⟩ := not_part_of_isGap h.1
      rw [List.cons_append, numeralsFrom, hDigit, hMinus]
      exact ih h.2

/-- An open number takes in all digits that follow. -/
theorem numeralsFrom_digits {digits : List Char} (h : ∀ c ∈ digits, c.isDigit = true)
    (n : Numeral) (minus : Bool) (hApart : ∀ c ∈ rest.head?, IsGap c) :
    numeralsFrom (some n) minus (digits ++ rest) =
      { n with digits := n.digits.reverse ++ digits } :: numeralsFrom none false rest := by
  induction digits generalizing n minus with
  | nil =>
      cases rest with
      | nil => simp [numeralsFrom]
      | cons c rest =>
          obtain ⟨hDigit, hMinus⟩ := not_part_of_isGap (hApart c rfl)
          simp [numeralsFrom, hDigit, hMinus]
  | cons c digits ih =>
      rw [List.forall_mem_cons] at h
      rw [List.cons_append, numeralsFrom]
      simp only [isDecimalDigit_of_isDigit h.1, if_true]
      rw [ih h.2]
      simp

/-- A spelled number followed by a blank, or by nothing, is found as one numeral. -/
theorem numeralsFrom_spelled (zeros : Nat) (k : Int) (hApart : ∀ c ∈ rest.head?, IsGap c) :
    numeralsFrom none false (spelled zeros k ++ rest) =
      scanned zeros k :: numeralsFrom none false rest := by
  have hDigits : ∀ minus, numeralsFrom none minus
      (List.replicate zeros '0' ++ Nat.toDigits 10 k.natAbs ++ rest) =
        { negative := minus, digits := List.replicate zeros '0' ++ Nat.toDigits 10 k.natAbs } ::
          numeralsFrom none false rest := by
    intro minus
    have hAll : ∀ c ∈ List.replicate zeros '0' ++ Nat.toDigits 10 k.natAbs, c.isDigit = true :=
      fun c => isDigit_spelled
    have hNil : List.replicate zeros '0' ++ Nat.toDigits 10 k.natAbs ≠ [] := fun h =>
      Nat.toDigits_ne_nil (List.append_eq_nil_iff.1 h).2
    obtain ⟨c, digits, hCons⟩ := List.exists_cons_of_ne_nil hNil
    rw [hCons] at hAll ⊢
    rw [List.forall_mem_cons] at hAll
    rw [List.cons_append, numeralsFrom]
    simp only [isDecimalDigit_of_isDigit hAll.1, if_true]
    rw [numeralsFrom_digits hAll.2 _ _ hApart]
    rfl
  rw [spelled, scanned, List.append_assoc]
  by_cases hNegative : k < 0
  · rw [if_pos hNegative, List.singleton_append, numeralsFrom]
    simp only [show isDecimalDigit '-' = false by decide, decide_eq_true hNegative]
    exact hDigits true
  · rw [if_neg hNegative, List.nil_append, decide_eq_false hNegative]
    exact hDigits false

end Scan

/-- A numeral within the limit on digits has its spelled value, leading zeros or not. -/
theorem value_spelled {zeros : Nat} {k : Int}
    (hShort : zeros + (Nat.toDigits 10 k.natAbs).length ≤ integerDigitLimit) :
    (scanned zeros k).value = .ok k := by
  have hLength : ¬integerDigitLimit <
      (List.replicate zeros '0' ++ Nat.toDigits 10 k.natAbs).length := by
    rw [List.length_append, List.length_replicate]
    omega
  have hValue : decimalValue (List.replicate zeros '0' ++ Nat.toDigits 10 k.natAbs) = k.natAbs := by
    rw [decimalValue_of_isDigit fun c => isDigit_spelled, Nat.ofDigitChars_append,
      Nat.ofDigitChars_replicate_zero, Nat.mul_zero, Nat.ofDigitChars_ten_toDigits]
  simp only [scanned, Numeral.value, hLength, if_false, hValue, decide_eq_true_eq]
  congr 1
  split <;> omega

namespace Progress

/-- The integers of a line, one after the other. -/
def addNumbers (p : Progress) (ks : List Int) : Progress := ks.foldl addNumber p

/-- A line of numbers adds its numbers, in order. -/
theorem foldlM_numeralsFrom {ks : List Int} {line : List Char} (h : NumberLine ks line)
    (p : Progress) :
    (numeralsFrom none false line).foldlM (fun q n => return q.addNumber (← n.value)) p =
      (.ok (p.addNumbers ks) : Except NumeralTooLong Progress) := by
  induction h generalizing p with
  | @blank gap hGap =>
      have hNone := numeralsFrom_gap hGap []
      rw [List.append_nil] at hNone
      rw [hNone]
      rfl
  | number gap zeros hGap hShort hApart _ ih =>
      rw [numeralsFrom_gap hGap, numeralsFrom_spelled _ _ hApart, List.foldlM_cons,
        value_spelled hShort]
      exact ih _

theorem isSkipped_cons {c : Char} (h : c ∉ ['c', 'p', '%']) (rest : List Char) :
    isSkipped (c :: rest) = false := by
  simp only [List.mem_cons, List.not_mem_nil, or_false, not_or] at h
  simp [isSkipped, h]

theorem not_skipped_of_isGap {c : Char} (h : IsGap c) : c ∉ ['c', 'p', '%'] := by
  have hAll : ∀ d ∈ ['c', 'p', '%'], isBlank d = false := by
    simp [isBlank, blankCodes]
  intro hMem
  exact absurd h.1 (by rw [hAll c hMem]; decide)

theorem not_skipped_of_isDigit {c : Char} (h : c.isDigit = true) : c ∉ ['c', 'p', '%'] := by
  have hAll : ∀ d ∈ ['c', 'p', '%'], d.isDigit = false := by simp
  intro hMem
  exact absurd h (by rw [hAll c hMem]; decide)

/-- A line that starts with a number is not skipped. -/
theorem isSkipped_spelled (zeros : Nat) (k : Int) (rest : List Char) :
    isSkipped (spelled zeros k ++ rest) = false := by
  rw [spelled, List.append_assoc]
  by_cases hNegative : k < 0
  · rw [if_pos hNegative]
    exact isSkipped_cons (by decide) _
  · rw [if_neg hNegative, List.nil_append]
    cases hDigits : List.replicate zeros '0' ++ Nat.toDigits 10 k.natAbs with
    | nil => exact (Nat.toDigits_ne_nil (List.append_eq_nil_iff.1 hDigits).2).elim
    | cons c digits =>
        have hMem : c ∈ List.replicate zeros '0' ++ Nat.toDigits 10 k.natAbs := by simp [hDigits]
        exact isSkipped_cons (not_skipped_of_isDigit (isDigit_spelled hMem)) _

/-- A line that holds numbers does not begin like one that is skipped. -/
theorem isSkipped_numberLine {ks : List Int} {line : List Char} (h : NumberLine ks line) :
    isSkipped line = false := by
  cases h with
  | blank hGap =>
      cases line with
      | nil => rfl
      | cons c gap => exact isSkipped_cons (not_skipped_of_isGap (hGap c List.mem_cons_self)) _
  | @number gap zeros k ks rest hGap _ _ _ =>
      cases gap with
      | nil => exact isSkipped_spelled zeros k rest
      | cons c gap => exact isSkipped_cons (not_skipped_of_isGap (hGap c List.mem_cons_self)) _

/-- Every line of a layout adds the numbers laid out on it; a skipped line has none. -/
theorem addLine_line {ks : List Int} {line : List Char} (h : Line ks line) (p : Progress) :
    p.addLine line = .ok (p.addNumbers ks) := by
  cases h with
  | numbers h =>
      rw [addLine, isSkipped_numberLine h]
      exact foldlM_numeralsFrom h p
  | @skipped first rest hFirst _ =>
      have hSkipped : isSkipped (first :: rest) = true := by
        simp only [List.mem_cons, List.not_mem_nil, or_false] at hFirst
        rcases hFirst with rfl | rfl | rfl <;> rfl
      rw [addLine, hSkipped]
      rfl

theorem addNumbers_append (p : Progress) (ks more : List Int) :
    p.addNumbers (ks ++ more) = (p.addNumbers ks).addNumbers more := List.foldl_append

/-- A blank line holds no integers. -/
theorem eq_nil_of_line_nil {ks : List Int} (h : Line ks []) : ks = [] := by
  generalize hLine : ([] : List Char) = line at h
  cases h with
  | numbers h =>
      cases h with
      | blank => rfl
      | @number gap zeros k ks rest _ _ _ _ =>
          have hSpelled : spelled zeros k = [] :=
            (List.append_eq_nil_iff.1 (List.append_eq_nil_iff.1 hLine.symm).2).1
          have hDigits := (List.append_eq_nil_iff.1 (List.append_eq_nil_iff.1 hSpelled).2).2
          exact (Nat.toDigits_ne_nil hDigits).elim
  | skipped => cases hLine

/-- Along the lines of a page the reader takes in its integers. -/
theorem foldlM_page {ks : List Int} {text : List Char} (h : Page ks text)
    (done : List (List Char)) (afterReturn : Bool) {p q : Progress}
    (hDone : done.reverse.foldlM addLine p = .ok q) :
    (Lines.ofCharsFrom done [] afterReturn text).all.foldlM addLine p =
      .ok (q.addNumbers ks) := by
  induction h generalizing done afterReturn q with
  | @last ks line h =>
      rw [Lines.ofCharsFrom_last h.inside, List.foldlM_append, hDone]
      simp only [List.foldlM_cons, List.foldlM_nil, bind, Except.bind, addLine_line h]
      rfl
  | @line ending ks more line rest h hEnding _ ih =>
      rcases Lines.ofCharsFrom_line h.inside hEnding done afterReturn rest with
        ⟨rfl, hLost⟩ | ⟨b, hEnded⟩
      · rw [hLost, ih done false hDone, eq_nil_of_line_nil h, List.nil_append]
      · have hMore : (line :: done).reverse.foldlM addLine p = .ok (q.addNumbers ks) := by
          rw [List.reverse_cons, List.foldlM_append, hDone]
          simp only [List.foldlM_cons, List.foldlM_nil, bind, Except.bind, addLine_line h]
          rfl
        rw [hEnded, ih (line :: done) b hMore, addNumbers_append]

end Progress

/-- The clause of a row of integers: their literals, without those that occur before. -/
def clauseOf (c : List Int) : Clause := (c.map literalOf).eraseDups

namespace Progress

/-- Between two zeros the open clause is kept without repetitions. -/
theorem addNumbers_clause {c : List Int} (hZero : ∀ k ∈ c, k ≠ 0) (closed : List Clause)
    (read : List Literal) :
    addNumbers { closed, opened := read.eraseDups } c =
      { closed, opened := (read ++ c.map literalOf).eraseDups } := by
  induction c generalizing read with
  | nil => simp [addNumbers]
  | cons k c ih =>
      rw [List.forall_mem_cons] at hZero
      have hStep : addNumber { closed, opened := read.eraseDups } k =
          { closed, opened := (read ++ [literalOf k]).eraseDups } := by
        rw [addNumber, if_neg hZero.1, List.eraseDups_append]
        by_cases hKnown : literalOf k ∈ read
        · simp [hKnown, List.removeAll]
        · simp [hKnown, List.removeAll, List.eraseDups_cons]
      have hRest := ih hZero.2 (read ++ [literalOf k])
      rw [List.append_assoc] at hRest
      rw [addNumbers, List.foldl_cons, hStep]
      exact hRest

/-- Dropping duplicates leaves something of a clause with a literal. -/
theorem clauseOf_ne_nil {c : List Int} (hNil : c ≠ []) : clauseOf c ≠ [] := by
  obtain ⟨k, c, rfl⟩ := List.exists_cons_of_ne_nil hNil
  simp [clauseOf, List.eraseDups_cons]

/-- Without an open clause, more zeros change nothing, and a clause is added as a whole. -/
theorem formula_addNumbers {clauses : List (List Int)} {ks : List Int} (h : Closed clauses ks)
    (closed : List Clause) :
    (addNumbers { closed, opened := [] } ks).formula = closed.reverse ++ clauses.map clauseOf := by
  induction h generalizing closed with
  | nothing => simp [addNumbers, formula]
  | zero _ ih => exact ih closed
  | @clause c clauses ks hNil hZero _ ih =>
      have hClause := addNumbers_clause hZero closed []
      rw [List.eraseDups_nil, List.nil_append] at hClause
      rw [addNumbers_append, hClause]
      have hClosed : addNumber { closed, opened := clauseOf c } 0 =
          { closed := clauseOf c :: closed, opened := [] } := by
        simp [addNumber, clauseOf_ne_nil hNil]
      have hRest := ih (clauseOf c :: closed)
      rw [← hClosed] at hRest
      simpa [addNumbers, clauseOf] using hRest
  | @lastClause c hNil hZero =>
      have hClause := addNumbers_clause hZero closed []
      rw [List.eraseDups_nil, List.nil_append] at hClause
      have hOpen : (c.map literalOf).eraseDups ≠ [] := clauseOf_ne_nil hNil
      rw [hClause]
      simp [formula, hOpen, clauseOf]

end Progress

/-- A layout of clauses is read as these clauses without their duplicates. -/
theorem parse_laidOut {clauses : List (List Int)} {text : List Char} (h : LaidOut clauses text) :
    parse text = .ok (clauses.map clauseOf) := by
  obtain ⟨ks, hClosed, hPage⟩ := h
  have hRead := Progress.foldlM_page hPage [] false (p := .empty) (q := .empty) rfl
  rw [parse, Lines.ofChars, hRead]
  exact congrArg Except.ok (Progress.formula_addNumbers hClosed [])

theorem ofBytes_laidOut {clauses : List (List Int)} {text : String}
    (h : LaidOut clauses text.toList) :
    ofBytes (Utf8.encode text) = .ok (clauses.map clauseOf) := by
  simp only [ofBytes, Utf8.decodeBlocks_encode, parse_laidOut h]
  rfl

/-- A file that lays out clauses is read as these clauses: in order, each with the literals of its
integers in order, less those that occur before in the clause. -/
theorem ofFile_laidOut {clauses : List (List Int)} {text path : String} {files : FileTree}
    (h : LaidOut clauses text.toList) (hFile : files.read path = .ok (Utf8.encode text)) :
    ofFile files path = .ok (clauses.map fun c => (c.map literalOf).eraseDups) := by
  rw [ofFile, hFile]
  simp only [Except.mapError, bind, Except.bind, ofBytes_laidOut h]
  rfl

/-- A comment, a clause that goes on after a blank line and repeats a literal, one zero too many,
and no zero at the end. -/
def spreadText : String := "c x\n1 -2\n\n 1 0 00 3"

theorem laidOut_spreadText : LaidOut [[1, -2, 1], [3]] spreadText.toList := by
  have hNone : ∀ c ∈ ([] : List Char), IsGap c := List.forall_mem_nil _
  have hSpace : ∀ c ∈ [' '], IsGap c := List.forall_mem_singleton.2 (by decide)
  have hApart : ∀ rest : List Char, ∀ c ∈ (' ' :: rest).head?, IsGap c := by
    rintro rest c ⟨⟩
    exact hSpace ' ' (List.mem_singleton_self _)
  have hInside : ∀ c ∈ [' ', 'x'], Lines.Inside c := by simp [Lines.Inside]
  have hComment : Line [] "c x".toList := .skipped (by decide) hInside
  have hBlank : NumberLine [] [] := .blank hNone
  have hFirst : NumberLine [1, -2] "1 -2".toList :=
    .number [] 0 hNone (by decide) (hApart _) (.number [' '] 0 hSpace (by decide) nofun hBlank)
  have hSecond : NumberLine [1, 0, 0, 3] " 1 0 00 3".toList :=
    .number [' '] 0 hSpace (by decide) (hApart _) (.number [' '] 0 hSpace (by decide) (hApart _)
      (.number [' '] 1 hSpace (by decide) (hApart _)
        (.number [' '] 0 hSpace (by decide) nofun hBlank)))
  have hPage : Page [1, -2, 1, 0, 0, 3] spreadText.toList :=
    .line ['\n'] hComment (by decide) (.line ['\n'] (.numbers hFirst) (by decide)
      (.line ['\n'] (.numbers hBlank) (by decide) (.last (.numbers hSecond))))
  have hLast : Closed [[3]] [3] := .lastClause (by decide) (by decide)
  have hClause : [1, -2, 1] ≠ ([] : List Int) := by decide
  exact ⟨_, .clause hClause (by decide) (.zero hLast), hPage⟩

/-- One file in an empty directory. -/
def oneFile (content : List UInt8) : FileTree := (∅ : FileTree).insert "a.cnf" (.file content)

theorem read_oneFile (content : List UInt8) : (oneFile content).read "a.cnf" = .ok content := by
  cbv

theorem ofFile_laidOut_spread :
    LaidOut [[1, -2, 1], [3]] spreadText.toList ∧
      (oneFile (Utf8.encode spreadText)).read "a.cnf" = .ok (Utf8.encode spreadText) ∧
      ofFile (oneFile (Utf8.encode spreadText)) "a.cnf" =
        .ok [[literalOf 1, literalOf (-2)], [literalOf 3]] := by
  have hFile := read_oneFile (Utf8.encode spreadText)
  refine ⟨laidOut_spreadText, hFile, ?_⟩
  rw [ofFile_laidOut laidOut_spreadText hFile]
  rfl

end Dimacs

end SatLab
