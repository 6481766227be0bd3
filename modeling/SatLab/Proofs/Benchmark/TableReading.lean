import SatLab.Proofs.Benchmark.Restoring
import SatLab.Proofs.Sheet.Standard

/-! The result table, read again by an engine that does what is documented of engines. Its rows are
found in their order, and those with few inconclusive instances are kept. The names of solvers and
folders are typed like any column of a sheet, so only names that do not look like missing cells,
numbers, or flags are sure to stay as they were. -/

namespace SatLab

namespace SummaryRow

/-- The cells of a row as texts. -/
def texts (r : SummaryRow) : List String :=
  [r.solver, r.folder, r.avgTime, r.minTime, r.maxTime, r.avgMemory, r.minMemory, r.maxMemory,
    toString r.inconclusive, toString r.failed, r.decisions]

end SummaryRow

namespace Benchmark

open Sheet (IsProse isMissingWord wordCell)

/-- The cells of the rows of a result table. -/
def tableBody (rows : List SummaryRow) : List (List (List Char)) :=
  rows.map fun row => row.texts.map String.toList

/-- The table text, character by character: the heading and every row spelled as a row of cells. -/
theorem tableText_toList (rows : List SummaryRow) : (tableText rows).toList =
    (tableColumns :: rows.map SummaryRow.texts).flatMap Sheet.rowChars := by
  induction rows using List.reverseRecOn with
  | nil => simp [tableText]
  | append_singleton rows row ih =>
      rw [tableText_concat, String.toList_append, ih, SummaryRow.line, String.toList_ofList]
      simp [SummaryRow.texts]

/-- A result table spells the names of its columns and its rows. -/
theorem spellsSheet_tableText (rows : List SummaryRow) :
    Sheet.SpellsSheet (tableColumns.map String.toList :: tableBody rows)
      (tableText rows).toList := by
  have hWidth : ∀ row ∈ tableColumns :: rows.map SummaryRow.texts, 2 ≤ row.length := by
    rw [List.forall_mem_cons, List.forall_mem_map]
    exact ⟨by decide, fun row _ => by simp [SummaryRow.texts]⟩
  have hSpells := Sheet.spellsSheet_flatMap hWidth
  rwa [← tableText_toList, List.map_cons, List.map_map] at hSpells

/-- The heading of the table is one the reader takes as column names. -/
theorem isHeader_tableColumns : Sheet.IsHeader (tableColumns.map String.toList) where
  several := by decide
  few := by simp [tableColumns]
  distinct := List.Nodup.map (fun _ _ => String.toList_inj.1) (by decide)
  named := by decide
  plain := by simp [tableColumns, Sheet.isNameChar]

/-! ### Names of solvers and folders -/

/-- How a name is read in a column of text. -/
def nameCell (name : String) : Sheet.Cell := wordCell name.toList

/-- Names of a column of text, where so many cells are typed together: prose and words for missing
cells, or prose that is read together with other names of which none stands for a missing cell. -/
inductive Prosaic (portion : Nat) (names : List String) : Prop where
  | prose (hNull : ∀ name ∈ names, '\x00' ∉ name.toList)
      (hProse : ∀ name ∈ names, IsProse name.toList ∨ isMissingWord name.toList = true)
  | mixed (hNull : ∀ name ∈ names, '\x00' ∉ name.toList) (hFew : names.length ≤ portion)
      (hKnown : ∀ name ∈ names, isMissingWord name.toList = false)
      (hProse : ∃ name ∈ names, IsProse name.toList)

/-- Names that a reader of sheets shows as they are: a column of text in which no name stands for a
missing cell, or numbers in digits that fit into 63 bits. -/
inductive Legible (portion : Nat) : List String → Prop where
  | text {names : List String} (h : Prosaic portion names)
      (hKnown : ∀ name ∈ names, isMissingWord name.toList = false) : Legible portion names
  | numbers {ns : List Nat} (hSmall : ∀ n ∈ ns, n < 2 ^ 63) : Legible portion (ns.map toString)

/-- A name that is not read as a missing value is shown as it stands. -/
theorem shown_nameCell {name : String} (hKnown : isMissingWord name.toList = false) :
    (nameCell name).shown = name := by
  simp [nameCell, wordCell, hKnown, Sheet.Cell.shown]

/-- A column of prose is typed as text, portion by portion, whatever the portions are. -/
theorem Prosaic.cells_eq {portion : Nat} {names : List String} {cells : List Sheet.Cell}
    (h : Prosaic portion names)
    (hTyped : Sheet.TypedAs portion (names.map String.toList) cells) :
    cells = names.map nameCell := by
  have hCells : (names.map String.toList).map wordCell = names.map nameCell := by
    rw [List.map_map]
    rfl
  cases h with
  | prose _ hProse => rw [hTyped.prose (List.forall_mem_map.2 hProse), hCells]
  | mixed _ hFew hKnown hProse =>
      obtain ⟨name, hMem, hProse⟩ := hProse
      rw [hTyped.mixed (by rwa [List.length_map]) (List.forall_mem_map.2 hKnown)
        ⟨_, List.mem_map_of_mem hMem, hProse⟩, hCells]

theorem Prosaic.noNull {portion : Nat} {names : List String} (h : Prosaic portion names) :
    ∀ name ∈ names, '\x00' ∉ name.toList := by
  cases h with
  | prose hNull => exact hNull
  | mixed hNull => exact hNull

/-- Only digits stand in the decimal of a number. -/
theorem not_mem_toString {c : Char} (hDigit : c.isDigit = false) (n : Nat) :
    c ∉ (toString n).toList := by
  intro hMem
  have hDigits : (toString n).toList = Nat.toDigits 10 n := by simp
  rw [Sheet.isDigit_of_mem (hDigits ▸ hMem)] at hDigit
  cases hDigit

theorem toString_toList (ns : List Nat) :
    (ns.map toString).map String.toList = ns.map (Nat.toDigits 10) := by
  simp

/-- Legible names are shown as they are. -/
theorem Legible.map_shown {portion : Nat} {names : List String} {cells : List Sheet.Cell}
    (h : Legible portion names)
    (hTyped : Sheet.TypedAs portion (names.map String.toList) cells) :
    cells.map Sheet.Cell.shown = names := by
  cases h with
  | text hText hKnown =>
      rw [hText.cells_eq hTyped, List.map_map]
      conv_rhs => rw [← List.map_id names]
      exact List.map_congr_left fun name hName => shown_nameCell (hKnown name hName)
  | @numbers ns hSmall =>
      rw [hTyped.naturals ns hSmall (toString_toList ns), List.map_map]
      apply List.map_congr_left
      intro n hn
      have hBound := hSmall n hn
      simp only [Function.comp_apply, Sheet.Cell.shown]
      rw [Int64.toInt_ofNat_of_lt hBound]
      rfl

theorem Legible.noNull {portion : Nat} {names : List String} (h : Legible portion names) :
    ∀ name ∈ names, '\x00' ∉ name.toList := by
  cases h with
  | text hText => exact hText.noNull
  | numbers => exact List.forall_mem_map.2 fun n _ => not_mem_toString (by decide) n

/-! ### The results of a table -/

/-- The rows with few inconclusive instances, each with its number. -/
def keptRows (rows : List SummaryRow) : List (SummaryRow × Nat) :=
  rows.zipIdx.filter fun entry => decide ((entry.1.inconclusive : Int) ≤ Sheet.inconclusiveLimit)

/-- A column of a table shows these texts. -/
def Shows (t : Sheet.Table) (column : String) (texts : List String) : Prop :=
  ∃ cells, t.cellsOf column = .ok cells ∧ cells.map Sheet.Cell.shown = texts

/-- How the names of a column are found in the results. -/
structure NamesRead (portion : Nat) (rows : List SummaryRow) (column : String)
    (of : SummaryRow → String) (t : Sheet.Table) : Prop where
  prosaic : Prosaic portion (rows.map of) →
    t.cellsOf column = .ok ((keptRows rows).map fun entry => nameCell (of entry.1))
  legible : Legible portion (rows.map of) →
    Shows t column ((keptRows rows).map fun entry => of entry.1)

/-- The results are the kept rows of the table, with their numbers and names. -/
structure ReadAs (portion : Nat) (rows : List SummaryRow) (t : Sheet.Table) : Prop where
  names : t.names = tableColumns
  labels : t.rows.map Sheet.Row.label = (keptRows rows).map fun entry => [.signed (.ofNat entry.2)]
  solvers : NamesRead portion rows "solver" SummaryRow.solver t
  folders : NamesRead portion rows "folder" SummaryRow.folder t

section Columns

variable {rows : List SummaryRow} {place : Nat} {of : SummaryRow → String}
  (hText : ∀ r : SummaryRow, r.texts[place]? = some (of r))

include hText

/-- The words of a column are its texts. -/
theorem words_eq {words : List (List Char)}
    (hWords : List.Forall₂ (fun row word => '\x00' ∉ row.getD place [] → word = row.getD place [])
      (tableBody rows) words)
    (hNull : ∀ text ∈ rows.map of, '\x00' ∉ text.toList) :
    words = (rows.map of).map String.toList := by
  have hCell : ∀ r : SummaryRow, (r.texts.map String.toList).getD place [] = (of r).toList := by
    intro r
    simp [List.getD_eq_getElem?_getD, hText]
  rw [tableBody, List.forall₂_map_left_iff] at hWords
  simp only [hCell] at hWords
  rw [List.map_map]
  induction hWords with
  | nil => rfl
  | @cons row word rows words hFirst _ ih =>
      rw [List.map_cons, List.forall_mem_cons] at hNull
      rw [List.map_cons, hFirst hNull.1, ih hNull.2]
      rfl

/-- The texts of a column of a table that was read, as they are typed. -/
theorem typedAs_column {portion : Nat} {t : Sheet.Table}
    (hRead : Sheet.ReadsAs portion (tableColumns.map String.toList) (tableBody rows) t)
    (hNull : ∀ text ∈ rows.map of, '\x00' ∉ text.toList) :
    Sheet.TypedAs portion ((rows.map of).map String.toList) (t.column place) := by
  have hPlace : place < (tableColumns.map String.toList).length := by
    obtain ⟨hLess, -⟩ := List.getElem?_eq_some_iff.1
      (hText ⟨"", "", "", "", "", "", "", "", 0, 0, ""⟩)
    exact hLess
  obtain ⟨words, hWords, hTyped⟩ := hRead.columns place hPlace
  rwa [words_eq hText hWords hNull] at hTyped

end Columns

section Results

variable {rows : List SummaryRow} {e : Sheet.Engine}

/-- What is chosen of something for each row is what belongs to the kept rows. -/
theorem chosen_kept {α : Type} (f : SummaryRow × Nat → α) :
    Sheet.chosen (rows.zipIdx.map f) (rows.map fun row =>
      decide ((row.inconclusive : Int) ≤ Sheet.inconclusiveLimit)) = (keptRows rows).map f := by
  have hKeep : (rows.map fun row => decide ((row.inconclusive : Int) ≤ Sheet.inconclusiveLimit)) =
      rows.zipIdx.map fun entry =>
        decide ((entry.1.inconclusive : Int) ≤ Sheet.inconclusiveLimit) := by
    conv_lhs => rw [← List.zipIdx_map_fst 0 rows, List.map_map]
    rfl
  rw [Sheet.chosen_map, hKeep, Sheet.chosen_eq_filter, keptRows]

/-- The column of counts of a table is compared with the limit row by row. -/
theorem atMost_counts (hEngine : e.Lawful) {portion : Nat} {t : Sheet.Table}
    (hRead : Sheet.ReadsAs portion (tableColumns.map String.toList) (tableBody rows) t)
    (hCounts : ∀ row ∈ rows, row.inconclusive < 2 ^ 63) :
    e.atMost Sheet.inconclusiveLimit (t.column 8) = .ok (rows.map fun row =>
      decide ((row.inconclusive : Int) ≤ Sheet.inconclusiveLimit)) := by
  have hText : ∀ r : SummaryRow, r.texts[8]? = some (toString r.inconclusive) := fun _ => rfl
  have hNull : ∀ text ∈ rows.map fun r => toString r.inconclusive, '\x00' ∉ text.toList :=
    List.forall_mem_map.2 fun row _ => not_mem_toString (by decide) _
  have hColumn := (typedAs_column hText hRead hNull).naturals (rows.map SummaryRow.inconclusive)
    (List.forall_mem_map.2 hCounts) (by simp)
  have hSigned : t.column 8 =
      (rows.map fun row => Int64.ofNat row.inconclusive).map Sheet.Cell.signed := by
    rw [hColumn, List.map_map, List.map_map]
    rfl
  rw [hSigned, hEngine.atMost, List.map_map]
  congr 1
  apply List.map_congr_left
  intro row hRow
  simp only [Function.comp_apply]
  rw [Int64.toInt_ofNat_of_lt (hCounts row hRow)]

/-- The names of a column stay in the results. -/
theorem namesRead_of_cellsOf {portion : Nat} {t t' : Sheet.Table} {column : String} {place : Nat}
    {of : SummaryRow → String} (hText : ∀ r : SummaryRow, r.texts[place]? = some (of r))
    (hRead : Sheet.ReadsAs portion (tableColumns.map String.toList) (tableBody rows) t)
    (hCells : t'.cellsOf column = .ok (Sheet.chosen (t.column place) (rows.map fun row =>
      decide ((row.inconclusive : Int) ≤ Sheet.inconclusiveLimit)))) :
    NamesRead portion rows column of t' := by
  have hEntries : ∀ {β : Type} (f : SummaryRow → β),
      rows.map f = rows.zipIdx.map fun entry => f entry.1 := by
    intro β f
    conv_lhs => rw [← List.zipIdx_map_fst 0 rows, List.map_map]
    rfl
  refine ⟨fun hNames => ?_, fun hNames => ⟨_, hCells, ?_⟩⟩
  · have hColumn := hNames.cells_eq (typedAs_column hText hRead hNames.noNull)
    rw [List.map_map, hEntries] at hColumn
    rw [hCells, hColumn, chosen_kept]
    rfl
  · have hColumn := hNames.map_shown (typedAs_column hText hRead hNames.noNull)
    rw [← Sheet.chosen_map, hColumn, hEntries, chosen_kept]

/-- The results of a table can be read if the numbers of inconclusive instances fit into 63 bits. -/
theorem results_tableText (hEngine : e.Lawful)
    (hCounts : ∀ row ∈ rows, row.inconclusive < 2 ^ 63) :
    ∃ t, e.results (tableText rows).toList = .ok t ∧
      ReadAs (e.portion (tableText rows).toList) rows t := by
  have hWidth : ∀ row ∈ tableBody rows, row.length = (tableColumns.map String.toList).length :=
    List.forall_mem_map.2 fun _ _ => rfl
  obtain ⟨whole, hWhole, hRead⟩ :=
    hEngine.read isHeader_tableColumns hWidth (spellsSheet_tableText rows)
  have hNames : whole.names = tableColumns := by
    rw [hRead.names]
    simp
  have hPlace : ∀ {name place}, tableColumns.idxOf? name = some place →
      whole.place name = .ok place := by
    intro name place hFound
    simp [Sheet.Table.place, hNames, hFound]
  have hNumeric : ∀ name ∈ Sheet.numericColumns, name ∈ whole.names := by
    rw [hNames]
    decide
  obtain ⟨t, hResults, hSame⟩ := hEngine.results_sameBut hWhole (hPlace (by decide))
    (atMost_counts hEngine hRead hCounts) hNumeric
  have hColumn : ∀ {name place}, tableColumns.idxOf? name = some place →
      name ∉ Sheet.numericColumns → t.cellsOf name = .ok (Sheet.chosen (whole.column place)
        (rows.map fun row => decide ((row.inconclusive : Int) ≤ Sheet.inconclusiveLimit))) := by
    intro name place hFound hName
    rw [hSame.cells name hName, ← Sheet.Table.column_select]
    exact Sheet.Table.cellsOf_eq_ok (hPlace hFound)
  refine ⟨t, hResults, hSame.names.trans hNames, ?_, ?_, ?_⟩
  · have hLabels : whole.rows.map Sheet.Row.label =
        rows.zipIdx.map fun entry => [.signed (.ofNat entry.2)] := by
      rw [hRead.labels, tableBody, List.length_map, List.range_eq_range',
        ← List.zipIdx_map_snd 0 rows, List.map_map]
      rfl
    rw [hSame.labels, Sheet.Table.select, ← Sheet.chosen_map, hLabels, chosen_kept]
  · have hText : ∀ r : SummaryRow, r.texts[0]? = some r.solver := fun _ => rfl
    exact namesRead_of_cellsOf hText hRead (hColumn (by decide) (by decide))
  · have hText : ∀ r : SummaryRow, r.texts[1]? = some r.folder := fun _ => rfl
    exact namesRead_of_cellsOf hText hRead (hColumn (by decide) (by decide))

end Results

/-! ### The tables of campaigns -/

/-- The table of every run that its files let work, read again by any engine that does what is
documented; before it there may be any calls of campaigns, with restarts in between. The rows with
few inconclusive instances are there in their order, with their numbers, and the names are as the
types of their columns make them: as they were written if they are legible. -/
theorem Campaign.run_read_again {e : Sheet.Engine} (hEngine : e.Lawful)
    {calls : List (Campaign × Workbench)} {w : Workbench}
    (h : History (fun _ => True) (fun _ => True) calls w) (c : Campaign)
    (hAccess : ∀ fault, (c.run w).fault ≠ some (.access fault)) :
    let run := c.run w
    ∃ (l : Ledger) (rows : List SummaryRow), run.value.statistics = l.statistics ∧
      rows.Perm l.rows ∧
      run.value.files.read (resultTable w.files) = .ok (Utf8.encode (tableText rows)) ∧
      ((∀ row ∈ rows, row.inconclusive < 2 ^ 63) →
        ∃ t, e.results (tableText rows).toList = .ok t ∧
          ReadAs (e.portion (tableText rows).toList) rows t) := by
  intro run
  obtain ⟨first, hFirst⟩ := h.exists_kept
  obtain ⟨-, -, hLeaves⟩ := (c.upholds_true w).run (hFirst.mono fun _ _ _ hs => ⟨hs, trivial⟩)
  obtain ⟨l, hl⟩ := hLeaves fun _ _ => trivial
  rcases hl.table with ⟨fault, hStop⟩ | ⟨n, hPath, hTable⟩
  · exact absurd hStop (hAccess fault)
  · obtain ⟨rows, hPerm, hText⟩ := hTable.table
    refine ⟨l, rows, hl.kept.statistics, hPerm, ?_, results_tableText hEngine⟩
    rw [hPath]
    exact FileTree.read_inFolder isName_resultFolder (isName_tableName hTable.short)
      hTable.folder hText

theorem isProse_letter : IsProse "a".toList :=
  .of_noDigit (by decide) (by decide) (by decide)

/-- The second process goes on from the files of the first one. Its table has one row, which is read
again with the solver as it was written. -/
theorem Campaign.run_read_again_twice :
    let left := (twice.run (.ofFiles twiceFiles)).value.files
    let run := twice.run (.ofFiles left)
    Sheet.standard.Lawful ∧
      History (fun _ => True) (fun _ => True) [(twice, .ofFiles twiceFiles)] (.ofFiles left) ∧
      (∀ fault, run.fault ≠ some (.access fault)) ∧
      run.value.files.read (resultTable left) = .ok (Utf8.encode (tableText [twiceRow])) ∧
      ∃ t, Sheet.standard.results (tableText [twiceRow]).toList = .ok t ∧
        ReadAs (Sheet.standard.portion (tableText [twiceRow]).toList) [twiceRow] t ∧
        Shows t "solver" ["a"] := by
  intro left run
  have hChain : twice.Interrupted twiceFiles 1 left := .stopped .never List.mem_cons_self
  have hShort : 1 < 10 ^ 239 := Nat.one_lt_pow (by decide) (by decide)
  have hHistory := history_twice (fun _ => True) trivial fun _ => True
  have hAccess : ∀ fault, run.fault ≠ some (.access fault) := by
    simp [run, fault_twice hChain hShort]
  obtain ⟨l, rows, hStatistics, hPerm, hTable, hRead⟩ :=
    run_read_again Sheet.standard_lawful hHistory twice hAccess
  obtain rfl : l = twice.fullLedger twiceFiles twice.contestants :=
    Ledger.statistics_injective (hStatistics.symm.trans (statistics_twice hChain hShort))
  rw [rows_twice, List.perm_singleton] at hPerm
  subst hPerm
  obtain ⟨t, hResults, hRows⟩ := hRead (by decide)
  have hLegible : Legible (Sheet.standard.portion (tableText [twiceRow]).toList) ["a"] :=
    .text (.prose (by decide) (List.forall_mem_singleton.2 (.inl isProse_letter))) (by decide)
  exact ⟨Sheet.standard_lawful, hHistory, hAccess, hTable, t, hResults, hRows,
    hRows.solvers.legible hLegible⟩

/-- A row whose folder has the name of a missing cell. -/
def unseenRow : SummaryRow :=
  { solver := "dpll", folder := "NA", avgTime := "0.010000", minTime := "0.005000",
    maxTime := "0.020000", avgMemory := "120.00", minMemory := "100.00", maxMemory := "150.00",
    inconclusive := 0, failed := 0, decisions := "3.50" }

/-- Such a name is not read as it was written. -/
theorem results_unseen : ¬∀ (rows : List SummaryRow) (t : Sheet.Table),
    Sheet.results (tableText rows).toList = .ok t →
      Shows t "folder" ((keptRows rows).map fun entry => entry.1.folder) := by
  intro hAll
  have hCounts : ∀ row ∈ [unseenRow], row.inconclusive < 2 ^ 63 := by decide
  obtain ⟨t, hResults, hRead⟩ := results_tableText Sheet.standard_lawful hCounts
  obtain ⟨cells, hCells, hShown⟩ := hAll _ t hResults
  have hMissing : ∀ name ∈ [unseenRow].map SummaryRow.folder,
      IsProse name.toList ∨ isMissingWord name.toList = true := by
    rw [List.map_singleton, List.forall_mem_singleton]
    exact .inr (by decide)
  rw [hRead.folders.prosaic (.prose (by decide) hMissing)] at hCells
  cases hCells
  exact absurd hShown (by decide)

end Benchmark

end SatLab
