import Mathlib.Data.List.TakeWhile
import SatLab.Proofs.Sheet.Engine
import SatLab.Sheet.Reader

/-! The rows of a sheet are read back from every spelling of it. What is lost of a cell is what
follows its first null character, and nothing else: quotes, commas, line ends, and blanks at the
start of a row, for which the reader goes back to the start of the row and reads it again. -/

namespace SatLab

namespace Sheet

/-- What is read of a cell: all that is before its first null character. -/
def seen (cell : List Char) : List Char := cell.takeWhile (· != '\x00')

/-- A cell without a null character is seen as a whole. -/
theorem seen_of_not_mem {cell : List Char} (h : '\x00' ∉ cell) : seen cell = cell := by
  rw [seen, List.takeWhile_eq_self_iff]
  intro c hc
  rw [bne_iff_ne]
  rintro rfl
  exact h hc

/-- The rows as they are read. -/
def seenRows (rows : List (List (List Char))) : List (List (List Char)) :=
  rows.map fun row => row.map seen

namespace Reading

variable {r r' r'' : Reading} {again : Nat} {a : Anchor} {rest : List Char}

theorem showsText_of_ne (h : r.position ≠ .blankStart) (c : Char) : r.showsText c = false := by
  simp [showsText, h]

/-- A character that does not make the reader go back. -/
theorem readText_cons {c : Char} (hShows : r.showsText c = false) (hStep : r.step c = .ok r') :
    readText (again + 1) a r (c :: rest) =
      readText (again + 1) (a.after r r' c rest) r' rest := by
  rw [readText, hShows, hStep]
  rfl

/-- A character that makes it go back. -/
theorem readText_back {c : Char} (hShows : r.showsText c = true) :
    readText (again + 1) a r (c :: rest) =
      readText again a { r with position := .cellStart, cell := [] } a.text := by
  rw [readText, hShows]
  rfl

/-! ### The parts of a row -/

/-- A part of a row leads from one state to another. No row is closed, and the portion that is being
read stays the same. -/
def Through (r : Reading) (part : List Char) (r' : Reading) : Prop :=
  r'.count = r.count ∧ ∀ again (a : Anchor) rest, r.count < a.bound → ∃ a' : Anchor,
    a'.bound = a.bound ∧
      readText (again + 1) a r (part ++ rest) = readText (again + 1) a' r' rest

namespace Through

theorem refl (r : Reading) : r.Through [] r :=
  ⟨rfl, fun _ a _ _ => ⟨a, rfl, rfl⟩⟩

theorem trans {part more : List Char} (h : r.Through part r') (h' : r'.Through more r'') :
    r.Through (part ++ more) r'' := by
  refine ⟨h'.1.trans h.1, fun again a rest hBound => ?_⟩
  obtain ⟨a', hSame, hRead⟩ := h.2 again a (more ++ rest) hBound
  obtain ⟨a'', hSame', hRead'⟩ := h'.2 again a' rest (by rwa [h.1, hSame])
  refine ⟨a'', hSame'.trans hSame, ?_⟩
  rw [List.append_assoc, hRead, hRead']

theorem step {c : Char} (hPosition : r.position ≠ .blankStart) (hStep : r.step c = .ok r')
    (hCount : r'.count = r.count) : r.Through [c] r' := by
  refine ⟨hCount, fun again a rest hBound => ⟨a.after r r' c rest, ?_, ?_⟩⟩
  · rw [← hCount] at hBound
    simp only [Anchor.after, if_neg (Nat.not_le.2 hBound)]
    split <;> rfl
  · exact readText_cons (showsText_of_ne hPosition c) hStep

theorem cons {c : Char} {more : List Char} (hPosition : r.position ≠ .blankStart)
    (hStep : r.step c = .ok r') (hCount : r'.count = r.count) (h : r'.Through more r'') :
    r.Through (c :: more) r'' :=
  (step hPosition hStep hCount).trans h

end Through

/-- Characters in a cell without quotes. -/
theorem through_plain {cell : List Char} (hCell : ∀ c ∈ cell, isSpecial c = false)
    (hPosition : r.position = .inCell) :
    r.Through cell { r with cell := cell.reverse ++ r.cell } := by
  induction cell generalizing r with
  | nil => exact .refl r
  | cons c cell ih =>
      rw [List.forall_mem_cons] at hCell
      have hStep : r.step c = .ok (r.push c .inCell) := by
        have hPlain := hCell.1
        simp [isSpecial] at hPlain
        simp [step, hPosition, continueCell, hPlain]
      have hRest := ih (r := r.push c .inCell) hCell.2 rfl
      simp only [push, ← hPosition] at hStep hRest
      simpa using Through.cons (by simp [hPosition]) hStep rfl hRest

/-- Characters in quotes. -/
theorem through_quoted (cell : List Char) (hPosition : r.position = .inQuotes) :
    r.Through (doubledQuotes cell) { r with cell := cell.reverse ++ r.cell } := by
  induction cell generalizing r with
  | nil => exact .refl r
  | cons c cell ih =>
      have hPush : { r with cell := c :: r.cell } = r.push c .inQuotes := by
        rw [push, ← hPosition]
      have hRest := ih (r := { r with cell := c :: r.cell }) hPosition
      have hChar : r.Through (if c = '"' then ['"', '"'] else [c])
          { r with cell := c :: r.cell } := by
        rw [hPush]
        split
        · next hQuote =>
            have hFirst : r.step '"' = .ok { r with position := .afterQuote } := by
              simp [step, hPosition]
            refine .cons (by simp [hPosition]) hFirst rfl (.step ?_ ?_ rfl)
            · simp
            · simp [step, push, hQuote]
        · next hOther => exact .step (by simp [hPosition]) (by simp [step, hPosition, hOther]) rfl
      simpa [doubledQuotes] using hChar.trans hRest

/-- A cell may end here. -/
def MayEnd (r : Reading) : Prop :=
  r.position = .cellStart ∨ r.position = .inCell ∨ r.position = .afterQuote

/-- A cell from its start to its end. -/
theorem through_cell {cell text : List Char} (hSpells : SpellsCell cell text)
    (hPosition : r.position = .cellStart) (hCell : r.cell = []) :
    ∃ p, MayEnd { r with position := p, cell := cell.reverse } ∧
      r.Through text { r with position := p, cell := cell.reverse } := by
  cases hSpells with
  | quoted =>
      refine ⟨.afterQuote, .inr (.inr rfl), ?_⟩
      have hOpen : r.step '"' = .ok { r with position := .inQuotes, cell := [] } := by
        simp [step, hPosition, startCell, hCell]
      have hInside := through_quoted cell (r := { r with position := .inQuotes, cell := [] }) rfl
      have hClose : Through { r with position := .inQuotes, cell := cell.reverse } ['"']
          { r with position := .afterQuote, cell := cell.reverse } := by
        apply Through.step <;> simp [step]
      rw [List.append_nil] at hInside
      exact .cons (by simp [hPosition]) hOpen rfl (hInside.trans hClose)
  | plain hNone =>
      cases cell with
      | nil =>
          have hSame : { r with position := .cellStart, cell := [] } = r := by
            rw [← hPosition, ← hCell]
          refine ⟨.cellStart, .inl rfl, ?_⟩
          rw [List.reverse_nil, hSame]
          exact .refl r
      | cons c cell =>
          refine ⟨.inCell, .inr (.inl rfl), ?_⟩
          rw [List.forall_mem_cons] at hNone
          have hStep : r.step c = .ok (r.push c .inCell) := by
            have hFirst := hNone.1
            simp [isSpecial] at hFirst
            simp [step, hPosition, startCell, hFirst]
          have hRest := through_plain (r := r.push c .inCell) hNone.2 rfl
          simp only [push, hCell] at hStep hRest
          simpa using Through.cons (by simp [hPosition]) hStep rfl hRest

/-- A comma ends a cell that may end. -/
theorem MayEnd.through_comma (h : r.MayEnd) :
    r.Through [','] { r.endCell with position := .cellStart } := by
  rcases h with h | h | h <;>
    exact .step (by simp [h]) (by simp [Reading.step, h, startCell, continueCell]) rfl

/-- A carriage return ends a cell that may end. -/
theorem MayEnd.through_return (h : r.MayEnd) :
    r.Through ['\r'] { r.endCell with position := .afterReturn } := by
  rcases h with h | h | h <;>
    exact .step (by simp [h]) (by simp [Reading.step, h, startCell, continueCell]) rfl

/-- The cells of a row up to the carriage return. -/
theorem through_cells {cells spellings : List (List Char)}
    (hSpells : List.Forall₂ SpellsCell cells spellings) (hSome : cells ≠ [])
    (hPosition : r.position = .cellStart) (hCell : r.cell = []) :
    r.Through ([','].intercalate spellings ++ ['\r'])
      { r with position := .afterReturn, cells := (cells.map seen).reverse ++ r.cells } := by
  induction hSpells generalizing r with
  | nil => exact absurd rfl hSome
  | @cons cell text cells texts hFirstSpells hRestSpell ih =>
      obtain ⟨p, hEnd, hFirst⟩ := through_cell hFirstSpells hPosition hCell
      cases hRestSpell with
      | nil =>
          have hReturn := hFirst.trans hEnd.through_return
          simpa [endCell, seen, hCell] using hReturn
      | @cons next nextText cells texts _ _ =>
          have hComma := hFirst.trans hEnd.through_comma
          have hRest := ih (r := { r with position := .cellStart, cells := seen cell :: r.cells })
            (by simp) rfl hCell
          have hSame : ({ ({ r with position := p, cell := cell.reverse } : Reading).endCell with
              position := .cellStart } : Reading) =
                { r with position := .cellStart, cells := seen cell :: r.cells } := by
            simp [endCell, seen, hCell]
          rw [hSame] at hComma
          simpa [List.intercalate] using hComma.trans hRest

/-! ### The start of a row -/

/-- The reader is at the start of a row, to which it can go back, and the rows it has read have a
width. -/
structure AtRow (width : Nat) (a : Anchor) (r : Reading) (text : List Char) : Prop where
  position : r.position = .rowStart
  cells : r.cells = []
  cell : r.cell = []
  width : ∀ row ∈ r.rows.head?, row.length = width
  text : a.text = text
  bound : r.count < a.bound

/-- A character with which the text of a row begins, after blanks. -/
def Begins (c : Char) : Prop := isBlank c = false ∧ c ≠ '\n' ∧ c ≠ '\r'

theorem after_of_lt {c : Char} (reached : Reading) (hBound : reached.count < a.bound)
    (hChar : c ≠ '\n') : a.after r reached c rest = a := by
  simp [Anchor.after, Nat.not_le.2 hBound, hChar]

theorem ne_of_isBlank {c : Char} (h : isBlank c = true) : c ≠ '\n' ∧ c ≠ '\r' := by
  constructor <;> (rintro rfl; simp [isBlank] at h)

/-- After blanks the reader goes back. -/
theorem readText_blanks {blanks : List Char} {c : Char} (hBlanks : ∀ b ∈ blanks, isBlank b = true)
    (hBegins : Begins c) (hPosition : r.position = .blankStart) (hBound : r.count < a.bound) :
    readText (again + 1) a r (blanks ++ c :: rest) =
      readText again a { r with position := .cellStart, cell := [] } a.text := by
  induction blanks generalizing r with
  | nil =>
      apply readText_back
      simp [showsText, hPosition, hBegins.1, hBegins.2.1, hBegins.2.2]
  | cons b blanks ih =>
      rw [List.forall_mem_cons] at hBlanks
      have hNe := ne_of_isBlank hBlanks.1
      have hShows : r.showsText b = false := by simp [showsText, hBlanks.1]
      have hStep : r.step b = .ok (r.push b .blankStart) := by
        simp [step, hPosition, hNe.1, hNe.2, hBlanks.1]
      rw [List.cons_append, readText_cons hShows hStep,
        after_of_lt (r.push b .blankStart) hBound hNe.1]
      exact ih hBlanks.2 rfl hBound

/-- A character that begins a row is read alike at its start and at the start of a cell. -/
theorem exists_startCell {c : Char} (hBegins : Begins c) (r : Reading) : ∃ r',
    r.startCell c = .ok r' ∧ startCell { r with position := .cellStart } c = .ok r' := by
  simp only [startCell, hBegins.2.1, hBegins.2.2, if_false]
  by_cases hQuote : c = '"'
  · simp [hQuote]
  · by_cases hComma : c = ','
    · simp [hComma, endCell]
    · simp [hQuote, hComma, push]

/-- The start of a row is read like the start of a cell. If there are blanks, it is read again. -/
theorem readText_rowStart {width : Nat} {blanks : List Char} {c : Char}
    (h : AtRow width a r (blanks ++ c :: rest)) (hBlanks : ∀ b ∈ blanks, isBlank b = true)
    (hBegins : Begins c) (again : Nat) : ∃ again', again ≤ again' ∧
      readText (again + 2) a r (blanks ++ c :: rest) =
        readText (again' + 1) a { r with position := .cellStart } (blanks ++ c :: rest) := by
  have hStart : r.position ≠ .blankStart := by simp [h.position]
  cases blanks with
  | nil =>
      refine ⟨again + 1, Nat.le_succ again, ?_⟩
      obtain ⟨r', hSame, hSame'⟩ := exists_startCell hBegins r
      have hCell : step { r with position := .cellStart } c = .ok r' := hSame'
      have hRow : r.step c = .ok r' := by
        simp [step, h.position, startRow, hBegins.1, hBegins.2.1, hBegins.2.2, hSame]
      have hAfter : a.after r r' c rest = a.after { r with position := .cellStart } r' c rest := by
        simp [Anchor.after, h.position]
      rw [List.nil_append, readText_cons (showsText_of_ne hStart c) hRow, hAfter,
        readText_cons (showsText_of_ne (r := { r with position := .cellStart }) (by simp) c) hCell]
  | cons b blanks =>
      refine ⟨again, Nat.le_refl again, ?_⟩
      rw [List.forall_mem_cons] at hBlanks
      have hNe := ne_of_isBlank hBlanks.1
      have hStep : r.step b = .ok (r.push b .blankStart) := by
        simp [step, h.position, startRow, hNe.1, hNe.2, hBlanks.1]
      rw [List.cons_append, readText_cons (showsText_of_ne hStart b) hStep,
        after_of_lt (r.push b .blankStart) h.bound hNe.1,
        readText_blanks (r := r.push b .blankStart) hBlanks.2 hBegins rfl h.bound, h.text, push,
        ← h.cell]
      rfl

end Reading

theorem not_special {c : Char} (h : isSpecial c = false) : c ≠ '\n' ∧ c ≠ '\r' := by
  constructor <;> (rintro rfl; simp [isSpecial] at h)

/-- A spelled cell with something behind it begins with blanks and then something else, unless the
line ends. -/
theorem exists_begins_cell {cell text : List Char} (h : SpellsCell cell text) (more : List Char) :
    ∃ blanks c rest, text ++ ',' :: more = blanks ++ c :: rest ∧
      (∀ b ∈ blanks, Reading.isBlank b = true) ∧ Reading.Begins c := by
  cases h with
  | quoted =>
      exact ⟨[], '"', _, rfl, List.forall_mem_nil _, by simp [Reading.Begins, Reading.isBlank]⟩
  | plain hPlain =>
      have hSplit := List.takeWhile_append_dropWhile (p := Reading.isBlank) (l := cell)
      have hBlanks : ∀ b ∈ cell.takeWhile Reading.isBlank, Reading.isBlank b = true :=
        fun b hb => List.all_eq_true.1 List.all_takeWhile b hb
      cases hRest : cell.dropWhile Reading.isBlank with
      | nil =>
          rw [hRest, List.append_nil] at hSplit
          exact ⟨_, ',', more, by rw [hSplit], hBlanks, by simp [Reading.Begins, Reading.isBlank]⟩
      | cons c rest =>
          rw [hRest] at hSplit
          refine ⟨_, c, rest ++ ',' :: more, ?_, hBlanks, ?_, ?_⟩
          · rw [← List.cons_append, ← List.append_assoc, hSplit]
          · have hHead := List.head?_dropWhile_not Reading.isBlank cell
            rw [hRest] at hHead
            simpa using hHead
          · apply not_special
            have hMem : c ∈ cell := by rw [← hSplit]; simp
            exact hPlain c hMem

/-- A row of two cells or more has something in its line besides blanks. -/
theorem exists_begins {row : List (List Char)} {line : List Char} (hSpells : SpellsRow row line)
    (hRow : 2 ≤ row.length) : ∃ blanks c rest, line = blanks ++ c :: rest ∧
      (∀ b ∈ blanks, Reading.isBlank b = true) ∧ Reading.Begins c := by
  obtain ⟨hCells⟩ := hSpells
  cases hCells with
  | nil => simp at hRow
  | @cons first text row texts hFirst hRest =>
      cases hRest with
      | nil => simp at hRow
      | @cons second secondText row texts _ _ =>
          have hLine : [','].intercalate (text :: secondText :: texts) ++ ['\r', '\n'] =
              text ++ ',' :: ([','].intercalate (secondText :: texts) ++ ['\r', '\n']) := by
            simp [List.intercalate]
          rw [hLine]
          exact exists_begins_cell hFirst _

/-! ### Rows and sheets -/

/-- After the line feed of a row the reader can go back to what follows, and the next portion has
room. -/
theorem Anchor.after_row {a : Anchor} {before reached : Reading} {rest : List Char} {width : Nat}
    (hBound : before.count < a.bound) (hCount : reached.count = before.count + 1)
    (hWidth : (reached.rows.headD []).length = width) (hPortion : 1 < portion width) :
    (a.after before reached '\n' rest).text = rest ∧
      reached.count < (a.after before reached '\n' rest).bound := by
  rw [after]
  split
  · next hFull =>
      refine ⟨by simp, ?_⟩
      simp only [nextBound, hWidth, hCount]
      split
      · next hFirst =>
          show before.count + 1 < portion width + 1
          rw [hFirst, firstBound] at hBound
          omega
      · show before.count + 1 < a.bound + portion width
        omega
  · next hRoom =>
      simp only [if_true]
      exact ⟨trivial, Nat.not_le.1 hRoom⟩

namespace Reading

variable {r : Reading} {again : Nat} {a : Anchor} {rest : List Char} {width : Nat}

/-- A row as wide as the row before it is ended without a fault. -/
theorem endRow_of_width (hWidth : ∀ row ∈ r.rows.head?, row.length = r.cells.length) :
    r.endRow = .ok { r with
      position := .rowStart, rows := r.cells.reverse :: r.rows, cells := [], count := r.count + 1,
      lines := r.lines + 1 } := by
  rw [endRow]
  cases hRows : r.rows with
  | nil => rfl
  | cons before earlier =>
      have hSame : before.length = r.cells.length := hWidth before (by simp [hRows])
      simp [hSame, List.rightpad]

/-- The cells of a row are read, and its line is still open. -/
def filled (r : Reading) (row : List (List Char)) : Reading :=
  { r with position := .afterReturn, cells := (row.map seen).reverse }

/-- The row is closed. -/
def closed (r : Reading) (row : List (List Char)) : Reading :=
  { r with rows := row.map seen :: r.rows, count := r.count + 1, lines := r.lines + 1 }

namespace AtRow

variable {row : List (List Char)} {line : List Char}

/-- The reader goes through a spelled row and holds its cells. -/
theorem through_filled {text : List Char} (h : AtRow width a r text) (hRow : 2 ≤ row.length)
    {spellings : List (List Char)} (hSpells : List.Forall₂ SpellsCell row spellings) :
    Through { r with position := .cellStart } ([','].intercalate spellings ++ ['\r'])
      (r.filled row) := by
  have hSome : row ≠ [] := by
    rw [← List.length_pos_iff]
    omega
  have hThrough := through_cells (r := { r with position := .cellStart }) hSpells hSome rfl h.cell
  simpa [h.cells, filled] using hThrough

/-- The line feed after a full row closes the row. -/
theorem step_closed {text : List Char} (h : AtRow width a r text) (hRow : row.length = width) :
    (r.filled row).step '\n' = .ok (r.closed row) := by
  have hSame : ∀ before ∈ (r.filled row).rows.head?,
      before.length = (r.filled row).cells.length := by
    intro before hBefore
    rw [h.width before hBefore, ← hRow]
    simp [filled]
  show (r.filled row).endRow = _
  rw [endRow_of_width hSame]
  simp [filled, closed, h.position, h.cells]

/-- After a closed row the reader is at the start of a row again. -/
theorem closed {text : List Char} (h : AtRow width a r text) (hRow : row.length = width)
    (hPortion : 1 < Anchor.portion width) {a' : Anchor} (hBound : a'.bound = a.bound)
    (rest : List Char) :
    AtRow width (a'.after (r.filled row) (r.closed row) '\n' rest) (r.closed row) rest := by
  have hRoom : (r.filled row).count < a'.bound := by
    rw [hBound]
    exact h.bound
  have hWidth : ((r.closed row).rows.headD []).length = width := by simp [Reading.closed, hRow]
  obtain ⟨hText, hNext⟩ : (a'.after (r.filled row) (r.closed row) '\n' rest).text = rest ∧
      (r.closed row).count < (a'.after (r.filled row) (r.closed row) '\n' rest).bound :=
    Anchor.after_row hRoom rfl hWidth hPortion
  exact ⟨h.position, h.cells, h.cell, by simp [Reading.closed, hRow], hText, hNext⟩

/-- A row is read with all its cells. -/
theorem readText_row (h : AtRow width a r (line ++ rest)) (hSpells : SpellsRow row line)
    (hRow : row.length = width) (hWidth : 2 ≤ width) (hPortion : 1 < Anchor.portion width)
    (again : Nat) :
    ∃ again' a', again ≤ again' ∧
      readText (again + 2) a r (line ++ rest) = readText (again' + 1) a' (r.closed row) rest ∧
      AtRow width a' (r.closed row) rest := by
  have hTwo : 2 ≤ row.length := by rwa [hRow]
  obtain ⟨blanks, c, more, hChars, hBlanks, hBegins⟩ := exists_begins hSpells hTwo
  obtain @⟨spellings, hCells⟩ := hSpells
  have hText : [','].intercalate spellings ++ ['\r', '\n'] ++ rest =
      blanks ++ c :: (more ++ rest) := by
    rw [hChars, List.append_assoc, List.cons_append]
  obtain ⟨again', hAgain, hStart⟩ := readText_rowStart (hText ▸ h) hBlanks hBegins again
  obtain ⟨a₁, hBound, hRead⟩ := (h.through_filled hTwo hCells).2 again' a ('\n' :: rest) h.bound
  refine ⟨again', _, hAgain, ?_, h.closed hRow hPortion hBound rest⟩
  rw [hText, hStart, ← hText,
    ← readText_cons (showsText_of_ne (by simp [filled]) _) (h.step_closed hRow), ← hRead]
  simp

/-- A sheet is read to its end. -/
theorem readText_sheet {rows : List (List (List Char))} {text : List Char} (hWidth : 2 ≤ width)
    (hPortion : 1 < Anchor.portion width) (hRows : ∀ row ∈ rows, row.length = width)
    (hAgain : rows.length < again) (hSpells : SpellsSheet rows text) (h : AtRow width a r text) :
    ∃ last, readText again a r text = .ok last ∧ last.rows = (seenRows rows).reverse ++ r.rows := by
  induction hSpells generalizing again a r with
  | nil =>
      refine ⟨r, ?_, rfl⟩
      rw [readText, finish, h.position]
  | @cons row rows line text hLine _ ih =>
      rw [List.forall_mem_cons] at hRows
      obtain ⟨more, rfl⟩ : ∃ more, again = more + 2 :=
        ⟨again - 2, by rw [List.length_cons] at hAgain; omega⟩
      obtain ⟨again', a', hMore, hRead, hNext⟩ :=
        h.readText_row hLine hRows.1 hWidth hPortion more
      have hLess : rows.length < again' + 1 := by
        rw [List.length_cons] at hAgain
        omega
      obtain ⟨last, hLast, hAll⟩ := ih hRows.2 hLess hNext
      refine ⟨last, ?_, ?_⟩
      · rw [← hLast, hRead]
      · rw [hAll]
        simp [seenRows, Reading.closed]

end AtRow

end Reading

/-- A sheet has at most as many rows as its text has characters. -/
theorem length_le_of_spells {rows : List (List (List Char))} {text : List Char}
    (h : SpellsSheet rows text) : rows.length ≤ text.length := by
  induction h with
  | nil => exact Nat.zero_le _
  | cons hRow _ ih =>
      obtain ⟨_⟩ := hRow
      simp only [List.length_append, List.length_cons, List.length_nil]
      omega

/-- A sheet that is spelled is read, each cell as far as it is seen. The rows have one width of at
least two cells, and no byte order mark stands in front. -/
theorem rows_of_spells {rows : List (List (List Char))} {text : List Char} {width : Nat}
    (hSpells : SpellsSheet rows text) (hWidth : 2 ≤ width) (hPortion : 1 < Anchor.portion width)
    (hRows : ∀ row ∈ rows, row.length = width) (hMark : text.head? ≠ some '\ufeff') :
    Sheet.rows text = .ok (seenRows rows) := by
  have hLength := length_le_of_spells hSpells
  have hStart : Reading.AtRow width (.ofText text) .start text :=
    ⟨rfl, rfl, rfl, by simp [Reading.start], rfl, Nat.zero_lt_two⟩
  have hAgain : rows.length < againLimit text := by
    rw [againLimit]
    omega
  obtain ⟨last, hLast, hAll⟩ := hStart.readText_sheet hWidth hPortion hRows hAgain hSpells
  rw [Sheet.rows, if_neg hMark]
  simp only [hLast, bind, Except.bind, pure, Except.pure, hAll]
  simp [Reading.start]

end Sheet

end SatLab
