import Mathlib.Data.List.Forall2
import SatLab.Proofs.Fallible
import SatLab.Proofs.Sheet.Cells
import SatLab.Sheet.Column
import SatLab.Sheet.Engine
import SatLab.Sheet.Writer

/-! What is documented of an engine for sheets, and what follows for the results it gives.

Reading is described on sheets that are spelled: commas between cells, a cell in quotes if it has to
be, a line end after every row. Of the types of columns only the plain cases are described: prose is
text, words for missing cells are missing, and natural numbers are integers. The cells of one type
are only those of rows that are typed together. The results are the rows within the limit, in their
order; columns of numbers hold numbers, and all other columns are as they were read. -/

namespace SatLab

namespace Sheet

/-! ### Spelled sheets -/

/-- A spelling of a cell. In quotes every quote is written twice, and without quotes there are no
special characters. -/
inductive SpellsCell : List Char → List Char → Prop where
  | plain {cell : List Char} (h : ∀ c ∈ cell, isSpecial c = false) : SpellsCell cell cell
  | quoted (cell : List Char) : SpellsCell cell (quotedCell cell)

/-- The line of a row: its cells with commas between them, and a line end. -/
inductive SpellsRow (cells : List (List Char)) : List Char → Prop where
  | line {spellings : List (List Char)} (h : List.Forall₂ SpellsCell cells spellings) :
    SpellsRow cells ([','].intercalate spellings ++ ['\r', '\n'])

/-- The text of a sheet: the lines of its rows. -/
inductive SpellsSheet : List (List (List Char)) → List Char → Prop where
  | nil : SpellsSheet [] []
  | cons {row : List (List Char)} {rows : List (List (List Char))} {line text : List Char}
    (hRow : SpellsRow row line) (hRest : SpellsSheet rows text) :
    SpellsSheet (row :: rows) (line ++ text)

/-- A character of the name of a column. -/
def isNameChar (c : Char) : Bool := c.isAlphanum || c == '_'

/-- Names of columns: a few different words. -/
structure IsHeader (names : List (List Char)) : Prop where
  several : 2 ≤ names.length
  few : names.length ≤ 1000
  distinct : names.Nodup
  named : ∀ name ∈ names, name ≠ []
  plain : ∀ name ∈ names, ∀ c ∈ name, isNameChar c = true

/-- A written cell spells the cell, quoted or not. -/
theorem spellsCell_cellChars (cell : List Char) : SpellsCell cell (cellChars cell) := by
  rw [cellChars]
  split
  · exact .quoted cell
  · next hPlain =>
      refine .plain fun c hc => ?_
      simpa using fun hSpecial => hPlain (List.any_eq_true.2 ⟨c, hc, hSpecial⟩)

/-- What is written spells the row. -/
theorem spellsRow_rowChars {row : List String} (h : 2 ≤ row.length) :
    SpellsRow (row.map String.toList) (rowChars row) := by
  have hCells : rowCells (row.map String.toList) =
      [','].intercalate ((row.map String.toList).map cellChars) := by
    match row, h with
    | _ :: _ :: _, _ => simp [rowCells]
  rw [rowChars, hCells]
  refine .line ?_
  rw [List.forall₂_map_right_iff, List.forall₂_same]
  exact fun cell _ => spellsCell_cellChars cell

/-- Written rows of two or more cells spell a sheet. -/
theorem spellsSheet_flatMap {rows : List (List String)} (h : ∀ row ∈ rows, 2 ≤ row.length) :
    SpellsSheet (rows.map (List.map String.toList)) (rows.flatMap rowChars) := by
  induction rows with
  | nil => exact .nil
  | cons row rows ih =>
      rw [List.forall_mem_cons] at h
      exact .cons (spellsRow_rowChars h.1) (ih h.2)

/-! ### Typed columns -/

/-- A word that is no integer, no number, and no flag. -/
structure IsProse (word : List Char) : Prop where
  integer : ∀ low high n, readInteger low high word ≠ .value n
  real : readReal? word = none
  flag : ColumnType.readFlag? word = none

/-- A word with no digit where an integer starts is prose, if it is no number and no flag. -/
theorem IsProse.of_noDigit {word : List Char}
    (hDigits : (splitSign (word.dropWhile isNumberBlank)).2.takeWhile Char.isDigit = [])
    (hReal : readReal? word = none) (hFlag : ColumnType.readFlag? word = none) :
    IsProse word where
  integer := by
    intro low high n
    simp [readInteger, hDigits]
  real := hReal
  flag := hFlag

/-- A word of a column of text. -/
def wordCell (word : List Char) : Cell :=
  if isMissingWord word then .missing else .text (String.ofList word)

/-- A column of words whose types are plain to see, where so many cells are typed together. -/
structure TypedAs (portion : Nat) (words : List (List Char)) (cells : List Cell) : Prop where
  /-- Prose and words for missing cells. -/
  prose : (∀ word ∈ words, IsProse word ∨ isMissingWord word = true) →
    cells = words.map wordCell
  /-- Prose makes all words that are typed together text, if none of them is missing. -/
  mixed : words.length ≤ portion → (∀ word ∈ words, isMissingWord word = false) →
    (∃ word ∈ words, IsProse word) → cells = words.map wordCell
  /-- Natural numbers. -/
  naturals : ∀ ns : List Nat, (∀ n ∈ ns, n < 2 ^ 63) → words = ns.map (Nat.toDigits 10) →
    cells = ns.map fun n => .signed (.ofNat n)

/-- The table of a sheet. Its rows are numbered. A null character is no part of the text of a cell,
and nothing is said of cells that have one. -/
structure ReadsAs (portion : Nat) (header : List (List Char)) (body : List (List (List Char)))
    (t : Table) : Prop where
  names : t.names = header.map String.ofList
  labels : t.rows.map Row.label = (List.range body.length).map fun n => [.signed (.ofNat n)]
  columns : ∀ place < header.length, ∃ words : List (List Char),
    List.Forall₂ (fun row word => '\x00' ∉ row.getD place [] → word = row.getD place [])
      body words ∧ TypedAs portion words (t.column place)

/-- What is documented of an engine. -/
structure Engine.Lawful (e : Engine) : Prop where
  /-- A sheet that is spelled is read. -/
  read : ∀ {header : List (List Char)} {body : List (List (List Char))} {text : List Char},
    IsHeader header → (∀ row ∈ body, row.length = header.length) →
    SpellsSheet (header :: body) text →
    ∃ t, e.read text = .ok t ∧ ReadsAs (e.portion text) header body t
  /-- An undefined number is a missing cell. -/
  defined : ∀ {text : List Char} {t : Table}, e.read text = .ok t →
    ∀ place, ∀ c ∈ t.column place, c.IsDefined
  /-- Columns whose cells are typed together have one type. -/
  oneKind : ∀ {text : List Char} {t : Table}, e.read text = .ok t →
    t.rows.length ≤ e.portion text → ∀ place, ∃ k, ∀ c ∈ t.column place, c.FitsIn k
  /-- Integers are compared with a limit. -/
  atMost : ∀ (limit : Int) (ns : List Int64),
    e.atMost limit (ns.map .signed) = .ok (ns.map fun n => decide (n.toInt ≤ limit))
  /-- Every cell gives one number or a missing cell. -/
  length_toNumbers : ∀ cells, (e.toNumbers cells).length = cells.length
  numeric_toNumbers : ∀ cells, (∀ c ∈ cells, c.IsDefined) → ∀ c ∈ e.toNumbers cells, c.IsNumeric

/-! ### Chosen rows -/

section Chosen

variable {α β : Type}

theorem chosen_map (f : α → β) (xs : List α) (keep : List Bool) :
    chosen (xs.map f) keep = (chosen xs keep).map f := by
  induction xs generalizing keep with
  | nil => rfl
  | cons x xs ih =>
      cases keep with
      | nil => rfl
      | cons first keep => cases first <;> simp [chosen, ih]

/-- Choosing by a list of answers is filtering by what was asked. -/
theorem chosen_eq_filter (xs : List α) (p : α → Bool) : chosen xs (xs.map p) = xs.filter p := by
  induction xs with
  | nil => rfl
  | cons x xs ih => cases hKeep : p x <;> simp [chosen, ih, hKeep]

theorem chosen_sublist (xs : List α) (keep : List Bool) : (chosen xs keep).Sublist xs := by
  induction xs generalizing keep with
  | nil => exact .slnil
  | cons x xs ih =>
      cases keep with
      | nil => exact List.nil_sublist _
      | cons first keep =>
          cases first with
          | false => exact (ih keep).cons x
          | true => exact (ih keep).cons_cons x

end Chosen

namespace Table

variable {t t' t'' : Table} {name : String} {place : Nat}

/-- Selecting rows selects the same ones in each column. -/
theorem column_select (t : Table) (keep : List Bool) (place : Nat) :
    (t.select keep).column place = chosen (t.column place) keep := by
  rw [column, select, column, chosen_map]

/-- The cells of a column with a name. -/
def cellsOf (t : Table) (name : String) : Except SheetFault (List Cell) := do
  return t.column (← t.place name)

theorem cellsOf_eq_ok (h : t.place name = .ok place) : t.cellsOf name = .ok (t.column place) := by
  rw [cellsOf, h]
  rfl

/-- Every name of a table has a place. -/
theorem place_eq_ok (hName : name ∈ t.names) : ∃ place, t.place name = .ok place := by
  rw [place]
  cases hIndex : t.names.idxOf? name with
  | none => simp [hName] at hIndex
  | some n => exact ⟨n, rfl⟩

theorem getElem?_of_place (hPlace : t.place name = .ok place) : t.names[place]? = some name := by
  rw [Table.place] at hPlace
  cases hIndex : t.names.idxOf? name with
  | none => simp [hIndex] at hPlace
  | some n =>
      simp only [hIndex, Except.ok.injEq] at hPlace
      obtain ⟨hLess, hName, -⟩ := List.idxOf?_eq_some_iff.1 hIndex
      rw [← hPlace, List.getElem?_eq_getElem hLess, hName]

theorem place_congr (h : t'.names = t.names) (name : String) : t'.place name = t.place name := by
  rw [Table.place, Table.place, h]

/-! ### Columns that are replaced -/

/-- A table that has the same rows as another one, but for the cells in some columns. -/
structure SameBut (changed : List String) (t t' : Table) : Prop where
  names : t'.names = t.names
  labels : t'.rows.map Row.label = t.rows.map Row.label
  cells : ∀ name, name ∉ changed → t'.cellsOf name = t.cellsOf name

theorem SameBut.refl (t : Table) : SameBut [] t t := ⟨rfl, rfl, fun _ _ => rfl⟩

theorem SameBut.trans {changed more : List String} (h : SameBut changed t t')
    (h' : SameBut more t' t'') : SameBut (changed ++ more) t t'' where
  names := h'.names.trans h.names
  labels := h'.labels.trans h.labels
  cells := by
    intro name hName
    rw [List.mem_append, not_or] at hName
    rw [h'.cells name hName.2, h.cells name hName.1]

theorem zipWith_left {α β γ : Type} (f : α → γ) {items : List α} {others : List β}
    (hLength : others.length = items.length) :
    List.zipWith (fun item _ => f item) items others = items.map f := by
  induction items generalizing others with
  | nil => simp
  | cons item items ih =>
      cases others with
      | nil => cases hLength
      | cons other others => simp [ih (Nat.succ.inj hLength)]

/-- A column in place of one of the same length. -/
theorem sameBut_setColumn {column : List Cell} (hPlace : t.place name = .ok place)
    (hLength : column.length = t.rows.length) : SameBut [name] t (t.setColumn place column) where
  names := rfl
  labels := by
    rw [setColumn, List.map_zipWith]
    exact zipWith_left Row.label hLength
  cells := by
    intro other hOther
    rw [List.mem_singleton] at hOther
    have hSame : (t.setColumn place column).place other = t.place other := rfl
    rw [cellsOf, cellsOf, hSame]
    cases hFound : t.place other with
    | error fault => rfl
    | ok otherPlace =>
        have hNe : place ≠ otherPlace := by
          rintro rfl
          have hName := getElem?_of_place hFound
          rw [getElem?_of_place hPlace] at hName
          exact hOther (Option.some.inj hName).symm
        simp only [bind, Except.bind, pure, Except.pure, Table.column, setColumn, List.map_zipWith]
        rw [← zipWith_left (fun row : Row => row.cells.getD otherPlace .missing) hLength]
        simp [hNe]

/-- A cell of a column that is replaced is missing, where rows are too short, or a new one. -/
theorem mem_column_setColumn {column : List Cell} {c : Cell}
    (hc : c ∈ (t.setColumn place column).column place) : c = .missing ∨ c ∈ column := by
  obtain ⟨row, hRow, rfl⟩ := List.mem_map.1 hc
  rw [setColumn, ← List.map_uncurry_zip_eq_zipWith] at hRow
  obtain ⟨⟨old, cell⟩, hMem, rfl⟩ := List.mem_map.1 hRow
  obtain ⟨-, hCell⟩ := List.of_mem_zip hMem
  by_cases hShort : place < old.cells.length
  · right
    simpa [hShort] using hCell
  · left
    simp [List.getD_eq_getElem?_getD, hShort]

/-- The cells of all other columns are those that were there. -/
theorem column_setColumn_subset {column : List Cell} {other : Nat} (hOther : other ≠ place) :
    (t.setColumn place column).column other ⊆ t.column other := by
  intro c hc
  obtain ⟨row, hRow, rfl⟩ := List.mem_map.1 hc
  rw [setColumn, ← List.map_uncurry_zip_eq_zipWith] at hRow
  obtain ⟨⟨old, cell⟩, hMem, rfl⟩ := List.mem_map.1 hRow
  obtain ⟨hOld, -⟩ := List.of_mem_zip hMem
  have hSame : (old.cells.set place cell).getD other .missing = old.cells.getD other .missing := by
    simp [Ne.symm hOther]
  show (old.cells.set place cell).getD other .missing ∈ t.column other
  rw [hSame]
  exact List.mem_map_of_mem hOld

end Table

namespace Engine

open Cell (FitsIn IsNumeric)

variable {e : Engine} {t t' : Table} {name : String} {text : List Char}

/-- Keeping the rows within a limit is selecting them by one column. -/
theorem within_eq_ok {limit : Int} {place : Nat} {keep : List Bool}
    (hPlace : t.place name = .ok place) (hKeep : e.atMost limit (t.column place) = .ok keep) :
    e.within t name limit = .ok (t.select keep) := by
  rw [within, hPlace]
  simp only [bind, Except.bind, hKeep]
  rfl

theorem makeNumeric_eq_ok {place : Nat} (hPlace : t.place name = .ok place) :
    e.makeNumeric t name = .ok (t.setColumn place (e.toNumbers (t.column place))) := by
  rw [makeNumeric, hPlace]
  rfl

namespace Lawful

variable (h : e.Lawful)

include h

/-! ### The results of a sheet -/

/-- Making a column numeric leaves the other columns alone. -/
theorem makeNumeric_sameBut (hName : name ∈ t.names) :
    ∃ t', e.makeNumeric t name = .ok t' ∧ t.SameBut [name] t' := by
  obtain ⟨place, hPlace⟩ := Table.place_eq_ok hName
  refine ⟨_, makeNumeric_eq_ok hPlace, Table.sameBut_setColumn hPlace ?_⟩
  rw [h.length_toNumbers, Table.column, List.length_map]

/-- By induction on the names, making columns numeric leaves all others alone. -/
theorem foldlM_makeNumeric {names : List String} (hNames : ∀ name ∈ names, name ∈ t.names) :
    ∃ t', names.foldlM e.makeNumeric t = .ok t' ∧ t.SameBut names t' := by
  induction names generalizing t with
  | nil => exact ⟨t, rfl, .refl t⟩
  | cons name names ih =>
      rw [List.forall_mem_cons] at hNames
      obtain ⟨t', hFirst, hSame⟩ := h.makeNumeric_sameBut hNames.1
      obtain ⟨t'', hRest, hSame'⟩ := ih (t := t') (by rw [hSame.names]; exact hNames.2)
      refine ⟨t'', ?_, hSame.trans hSame'⟩
      rw [List.foldlM_cons, hFirst]
      exact hRest

/-- The results are the rows that are kept, with all columns as they are but those of numbers. -/
theorem results_sameBut {place : Nat} {keep : List Bool} (hRead : e.read text = .ok t)
    (hPlace : t.place "inconclusive" = .ok place)
    (hKeep : e.atMost inconclusiveLimit (t.column place) = .ok keep)
    (hNames : ∀ name ∈ numericColumns, name ∈ t.names) :
    ∃ t', e.results text = .ok t' ∧ (t.select keep).SameBut numericColumns t' := by
  obtain ⟨t', hNumeric, hSame⟩ := h.foldlM_makeNumeric (t := t.select keep) hNames
  refine ⟨t', ?_, hSame⟩
  rw [results, hRead]
  simp only [bind, Except.bind, within_eq_ok hPlace hKeep]
  exact hNumeric

/-! ### The types of results -/

/-- A step that makes a column numeric keeps the cells of the others. -/
theorem column_makeNumeric (hStep : e.makeNumeric t name = .ok t')
    (hDefined : ∀ place, ∀ c ∈ t.column place, c.IsDefined) :
    ∃ place, t.place name = .ok place ∧ t'.names = t.names ∧
      (∀ other, other ≠ place → t'.column other ⊆ t.column other) ∧
      ∀ c ∈ t'.column place, c.IsNumeric := by
  obtain ⟨place, hPlace, ⟨⟩⟩ := bind_eq_ok_iff.1 hStep
  refine ⟨place, hPlace, rfl, fun other => Table.column_setColumn_subset, fun c hc => ?_⟩
  rcases Table.mem_column_setColumn hc with rfl | hNew
  · exact Cell.isNumeric_missing
  · exact h.numeric_toNumbers _ (hDefined place) c hNew

/-- Columns that are made numeric are numbers, and all others are as they were. -/
theorem column_foldlM_makeNumeric {names : List String}
    (hSteps : names.foldlM e.makeNumeric t = .ok t')
    (hDefined : ∀ place, ∀ c ∈ t.column place, c.IsDefined) :
    t'.names = t.names ∧
      (∀ place, ((∃ name ∈ names, t.place name = .ok place) ∨ ∀ c ∈ t.column place, c.IsNumeric) →
        ∀ c ∈ t'.column place, c.IsNumeric) ∧
      ∀ place, (∀ name ∈ names, t.place name ≠ .ok place) → t'.column place ⊆ t.column place := by
  induction names generalizing t with
  | nil =>
      cases hSteps
      exact ⟨rfl, fun place hCells => hCells.resolve_left (by simp), fun _ _ _ => id⟩
  | cons name names ih =>
      rw [List.foldlM_cons] at hSteps
      obtain ⟨next, hFirst, hRest⟩ := bind_eq_ok_iff.1 hSteps
      obtain ⟨changed, hPlace, hNames, hOthers, hChanged⟩ := h.column_makeNumeric hFirst hDefined
      have hPlaces := Table.place_congr hNames
      have hDefined' : ∀ place, ∀ c ∈ next.column place, c.IsDefined := by
        intro place c hc
        by_cases hSame : place = changed
        · subst hSame
          exact (hChanged c hc).defined
        · exact hDefined place c (hOthers place hSame hc)
      obtain ⟨hNames', hNumeric, hOthers'⟩ := ih hRest hDefined'
      refine ⟨hNames'.trans hNames, fun place hCells => hNumeric place ?_, fun place hNone => ?_⟩
      · by_cases hSame : place = changed
        · subst hSame
          exact .inr hChanged
        · rcases hCells with ⟨found, hFound, hFoundPlace⟩ | hCells
          · rcases List.mem_cons.1 hFound with rfl | hLater
            · rw [hPlace] at hFoundPlace
              exact absurd (Except.ok.inj hFoundPlace).symm hSame
            · exact .inl ⟨found, hLater, (hPlaces found).trans hFoundPlace⟩
          · exact .inr fun c hc => hCells c (hOthers place hSame hc)
      · rw [List.forall_mem_cons] at hNone
        have hOther : place ≠ changed := fun hSame => hNone.1 (hSame ▸ hPlace)
        have hLater : ∀ name ∈ names, next.place name ≠ .ok place := fun name hName => by
          rw [hPlaces]
          exact hNone.2 name hName
        exact fun c hc => hOthers place hOther (hOthers' place hLater hc)

/-- The columns of results: those of numbers hold numbers, and all others hold cells that were
read. -/
theorem column_results (hResults : e.results text = .ok t) {place : Nat}
    (hPlace : t.place name = .ok place) :
    ∃ whole, e.read text = .ok whole ∧
      (name ∈ numericColumns → ∀ c ∈ t.column place, c.IsNumeric) ∧
      (name ∉ numericColumns → t.column place ⊆ whole.column place) := by
  obtain ⟨whole, hWhole, hRest⟩ := bind_eq_ok_iff.1 hResults
  obtain ⟨kept, hKept, hNumeric⟩ := bind_eq_ok_iff.1 hRest
  obtain ⟨limited, -, hKept⟩ := bind_eq_ok_iff.1 hKept
  obtain ⟨keep, -, ⟨⟩⟩ := bind_eq_ok_iff.1 hKept
  have hRows : ∀ place, (whole.select keep).column place ⊆ whole.column place := by
    intro place
    rw [Table.column_select]
    exact (chosen_sublist _ _).subset
  obtain ⟨hNames, hNumbers, hOthers⟩ := h.column_foldlM_makeNumeric hNumeric
    fun place c hc => h.defined hWhole place c (hRows place hc)
  have hPlaces := Table.place_congr hNames
  refine ⟨whole, hWhole, fun hName => ?_, fun hName => ?_⟩
  · exact hNumbers place (.inl ⟨name, hName, (hPlaces name).symm.trans hPlace⟩)
  · have hOther : ∀ other ∈ numericColumns, (whole.select keep).place other ≠ .ok place := by
      intro other hMem hFound
      have hSame := Table.getElem?_of_place hFound
      rw [← hNames, Table.getElem?_of_place hPlace] at hSame
      exact hName (Option.some.inj hSame ▸ hMem)
    exact fun c hc => hRows place (hOthers place hOther hc)

end Lawful

end Engine

end Sheet

end SatLab
