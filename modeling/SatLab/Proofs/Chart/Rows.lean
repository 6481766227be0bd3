import SatLab.Proofs.Benchmark.TableReading
import SatLab.Proofs.Chart.Standard

/-! The rows that charts are drawn of, for a result table that the engine for sheets reads. Rows are
told by their columns. Where the columns of a table hold numbers already and no folder has too many
inconclusive instances, the rows are those of the table. -/

namespace SatLab

namespace Chart

open Sheet

/-- The words of a column of a result table, as far as they can be seen. -/
def wordsOf (rows : List SummaryRow) (place : Nat) : List (List Char) :=
  rows.map fun row => seen ((row.texts.map String.toList).getD place [])

/-- The table of the text of a result table. -/
def readTable (rows : List SummaryRow) : Table :=
  { names := Benchmark.tableColumns,
    rows := rowsOf rows.length 0
      ((List.range 11).map fun place => column (Anchor.portion 11) (wordsOf rows place)) }

section Reading

variable (rows : List SummaryRow)

theorem portion_eleven : Anchor.portion 11 = 65536 := by decide

/-- Every row of the table has a cell for each column. -/
theorem length_tableBody : ∀ row ∈ Benchmark.tableBody rows,
    row.length = (Benchmark.tableColumns.map String.toList).length :=
  List.forall_mem_map.2 fun _ _ => rfl

/-- The text the benchmark writes is read back as the table of its rows. -/
theorem table_tableText : table (Benchmark.tableText rows).toList = .ok (readTable rows) := by
  have hColumns : (columnsOf 11 ((Benchmark.tableBody rows).map (List.map seen))).map
      (column (Anchor.portion 11)) =
        (List.range 11).map fun place => column (Anchor.portion 11) (wordsOf rows place) := by
    rw [columnsOf, List.map_map]
    apply List.map_congr_left
    intro place _
    rw [Function.comp_apply, Benchmark.tableBody, List.map_map, List.map_map]
    congr 1
    apply List.map_congr_left
    intro row _
    simp only [Function.comp_apply, List.getD_eq_getElem?_getD, List.getElem?_map]
    cases row.texts[place]? <;> rfl
  rw [table_of_spelled Benchmark.isHeader_tableColumns (length_tableBody rows)
    (Benchmark.spellsSheet_tableText rows)]
  have hWidth : (Benchmark.tableColumns.map String.toList).length = 11 := rfl
  rw [hWidth, hColumns, readTable, Benchmark.tableBody, List.length_map]
  congr 2

/-- A table of eleven columns is typed in portions of 65536 rows. -/
theorem portionOf_tableText : portionOf (Benchmark.tableText rows).toList = 65536 := by
  rw [portionOf_spelled Benchmark.isHeader_tableColumns (length_tableBody rows)
    (Benchmark.spellsSheet_tableText rows), ← portion_eleven]
  rfl

/-- The rows of a written table: the heading is understood, and only the limit on inconclusive
counts and the numeric columns are left to decide. -/
theorem readRows_tableText : standard.readRows (Benchmark.tableText rows).toList = (do
    let kept ← standard.within (readTable rows) "inconclusive" inconclusiveLimit
    let t ← numericColumns.foldlM standard.makeNumeric kept
    let _ ← t.place "folder"
    resultRows t) := by
  have hRead : standard.read (Benchmark.tableText rows).toList = .ok (readTable rows) :=
    table_tableText rows
  rw [Engine.readRows, Sheet.Engine.results, hRead]
  change (standard.within (readTable rows) "inconclusive" inconclusiveLimit >>= _) >>= _ = _
  rw [bind_assoc]

theorem length_column_readTable : ∀ cells ∈ (List.range 11).map fun place =>
    column (Anchor.portion 11) (wordsOf rows place), cells.length = rows.length :=
  List.forall_mem_map.2 fun place _ => by rw [length_column, wordsOf, List.length_map]

variable {rows}

/-- Each column of the table read is the written column, typed. -/
theorem column_readTable {place : Nat} (h : place < 11) :
    (readTable rows).column place = column (Anchor.portion 11) (wordsOf rows place) := by
  rw [readTable, column_rowsOf (length_column_readTable rows), Nat.zero_add,
    List.getD_eq_getElem?_getD, List.getElem?_map, List.getElem?_range h]
  rfl

/-- Tables of few rows have their columns typed in one go. -/
theorem isWhole_tableText (h : rows.length ≤ 65536) :
    standard.IsWhole (Benchmark.tableText rows).toList := by
  refine ⟨readTable rows, table_tableText rows, ?_⟩
  have hLength : (readTable rows).rows.length = rows.length := by
    simp [readTable, rowsOf, length_cellRows (length_column_readTable rows)]
  have hPortion : standard.portion (Benchmark.tableText rows).toList = 65536 :=
    portionOf_tableText rows
  rwa [hLength, hPortion]

end Reading

/-! ### Tables with nothing to change -/

/-- Integers stay as they are in a numeric column. -/
theorem numericColumn_signed (ns : List Int64) :
    numericColumn (ns.map .signed) = ns.map .signed := by
  have hText : (ns.map Cell.signed).any Cell.isText = false := by simp [Cell.isText]
  have hMissing : (ns.map Cell.signed).any Cell.isMissing = false := by simp [Cell.isMissing]
  rw [numericColumn, hText, hMissing]
  rfl

/-- A column in its own place changes nothing. -/
theorem setColumn_column (t : Table) (place : Nat) : t.setColumn place (t.column place) = t := by
  have hRow : ∀ row : Row,
      { row with cells := row.cells.set place (row.cells.getD place .missing) } = row := by
    intro row
    have hCells : row.cells.set place (row.cells.getD place .missing) = row.cells := by
      by_cases hLess : place < row.cells.length
      · simp [List.getD_eq_getElem?_getD, hLess]
      · exact List.set_eq_of_length_le (Nat.le_of_not_lt hLess)
    rw [hCells]
  obtain ⟨names, rows⟩ := t
  simp only [Table.setColumn, Table.column, Table.mk.injEq, true_and]
  induction rows with
  | nil => rfl
  | cons row rows ih => simp only [List.map_cons, List.zipWith_cons_cons, hRow, ih]

/-- A table whose columns of numbers are numbers stays as it is. -/
theorem foldlM_makeNumeric_eq_ok {t : Table} {names : List String}
    (h : ∀ name ∈ names, ∃ place, t.place name = .ok place ∧
      numericColumn (t.column place) = t.column place) :
    names.foldlM standard.makeNumeric t = .ok t := by
  induction names with
  | nil => rfl
  | cons name names ih =>
      rw [List.forall_mem_cons] at h
      obtain ⟨⟨place, hPlace, hColumn⟩, hRest⟩ := h
      have hSame : standard.toNumbers (t.column place) = t.column place := hColumn
      rw [List.foldlM_cons, Sheet.Engine.makeNumeric_eq_ok hPlace, hSame, setColumn_column]
      exact ih hRest

/-- A table whose rows are within the limit stays as it is. -/
theorem within_eq_self {t : Table} {name : String} {place : Nat} {limit : Int} {ns : List Int64}
    (hPlace : t.place name = .ok place) (hColumn : t.column place = ns.map .signed)
    (hLimit : ∀ n ∈ ns, n.toInt ≤ limit) : standard.within t name limit = .ok t := by
  have hLength : t.rows.length = ns.length := by
    have hCells : (t.column place).length = (ns.map Cell.signed).length := by rw [hColumn]
    rwa [Table.column, List.length_map, List.length_map] at hCells
  have hKeep : (ns.map fun n => decide (n.toInt ≤ limit)) = t.rows.map fun _ => true := by
    rw [List.map_congr_left fun n hn => decide_eq_true (hLimit n hn), List.map_const',
      List.map_const', hLength]
  have hAtMost := atMost_signed limit ns
  rw [← hColumn, hKeep] at hAtMost
  rw [Sheet.Engine.within_eq_ok hPlace hAtMost, Table.select, chosen_eq_filter, List.filter_true]

/-- Rows are told by their columns. -/
theorem eq_of_columns {rows others : List Result}
    (h : ∀ entry ∈ resultColumns, rows.map entry.2 = others.map entry.2) : rows = others := by
  induction rows generalizing others with
  | nil =>
      have hNone := h ("solver", Result.solver) (by simp [resultColumns])
      exact (List.map_eq_nil_iff.1 hNone.symm).symm
  | cons row rows ih =>
      cases others with
      | nil =>
          have hNone := h ("solver", Result.solver) (by simp [resultColumns])
          cases hNone
      | cons other others =>
          have hFirst : ∀ entry ∈ resultColumns, entry.2 row = entry.2 other := fun entry hEntry =>
            (List.cons.inj (h entry hEntry)).1
          have hRest := ih fun entry hEntry => (List.cons.inj (h entry hEntry)).2
          simp only [resultColumns, List.forall_mem_cons] at hFirst
          rw [hRest]
          congr 1
          cases row
          cases other
          simp_all

/-- The columns of a result table that rows are made of, by their places. -/
def resultPlaces : List (Nat × (Result → Cell)) :=
  [(0, Result.solver), (1, Result.folder), (2, Result.avgTime), (3, Result.minTime),
    (4, Result.maxTime), (5, Result.avgMemory), (6, Result.minMemory), (7, Result.maxMemory),
    (10, Result.decisions)]

section Places

variable {rows : List SummaryRow}

/-- Every column is found at the place the benchmark writes it. -/
theorem place_readTable {name : String} {place : Nat}
    (h : Benchmark.tableColumns.idxOf? name = some place) :
    (readTable rows).place name = .ok place := by
  simp [Table.place, readTable, h]

/-- The columns of the results are the columns of the table. -/
theorem exists_resultRows_readTable (rows : List SummaryRow) :
    ∃ results, resultRows (readTable rows) = .ok results ∧
      ∀ entry ∈ resultPlaces, results.map entry.2 = (readTable rows).column entry.1 := by
  generalize hTable : readTable rows = t
  have hPlace : ∀ {name place}, Benchmark.tableColumns.idxOf? name = some place →
      t.place name = .ok place := fun hFound => hTable ▸ place_readTable hFound
  simp only [resultRows, hPlace (show Benchmark.tableColumns.idxOf? "solver" = some 0 by decide),
    hPlace (show Benchmark.tableColumns.idxOf? "folder" = some 1 by decide),
    hPlace (show Benchmark.tableColumns.idxOf? "avg_time" = some 2 by decide),
    hPlace (show Benchmark.tableColumns.idxOf? "min_time" = some 3 by decide),
    hPlace (show Benchmark.tableColumns.idxOf? "max_time" = some 4 by decide),
    hPlace (show Benchmark.tableColumns.idxOf? "avg_mem" = some 5 by decide),
    hPlace (show Benchmark.tableColumns.idxOf? "min_mem" = some 6 by decide),
    hPlace (show Benchmark.tableColumns.idxOf? "max_mem" = some 7 by decide),
    hPlace (show Benchmark.tableColumns.idxOf? "decisions" = some 10 by decide)]
  refine ⟨_, rfl, ?_⟩
  simp only [resultPlaces, List.forall_mem_cons, List.map_map]
  exact ⟨rfl, rfl, rfl, rfl, rfl, rfl, rfl, rfl, rfl, List.forall_mem_nil _⟩

/-- A table whose columns of numbers are numbers, with few inconclusive instances in every row, is
read as its columns say. -/
theorem readRows_eq_ok {ns : List Int64} {results : List Result}
    (hCounts : (readTable rows).column 8 = ns.map .signed)
    (hLimit : ∀ n ∈ ns, n.toInt ≤ inconclusiveLimit)
    (hNumeric : ∀ place ∈ [2, 3, 4, 5, 6, 7, 10],
      numericColumn ((readTable rows).column place) = (readTable rows).column place)
    (hColumns : ∀ entry ∈ resultPlaces, (readTable rows).column entry.1 = results.map entry.2) :
    standard.readRows (Benchmark.tableText rows).toList = .ok results := by
  have hKept : standard.within (readTable rows) "inconclusive" inconclusiveLimit =
      .ok (readTable rows) := within_eq_self (place_readTable (by decide)) hCounts hLimit
  have hNumbers : numericColumns.foldlM standard.makeNumeric (readTable rows) =
      .ok (readTable rows) := by
    apply foldlM_makeNumeric_eq_ok
    simp only [List.forall_mem_cons] at hNumeric
    obtain ⟨h2, h3, h4, h5, h6, h7, h10, -⟩ := hNumeric
    simp only [numericColumns, List.forall_mem_cons]
    exact ⟨⟨2, place_readTable (by decide), h2⟩, ⟨3, place_readTable (by decide), h3⟩,
      ⟨4, place_readTable (by decide), h4⟩, ⟨5, place_readTable (by decide), h5⟩,
      ⟨6, place_readTable (by decide), h6⟩, ⟨7, place_readTable (by decide), h7⟩,
      ⟨10, place_readTable (by decide), h10⟩, List.forall_mem_nil _⟩
  obtain ⟨others, hOthers, hSame⟩ := exists_resultRows_readTable rows
  have hEqual : others = results := by
    apply eq_of_columns
    have hAll : ∀ entry ∈ resultPlaces, others.map entry.2 = results.map entry.2 :=
      fun entry hEntry => (hSame entry hEntry).trans (hColumns entry hEntry)
    simp only [resultPlaces, List.forall_mem_cons] at hAll
    obtain ⟨h0, h1, h2, h3, h4, h5, h6, h7, h10, -⟩ := hAll
    simp only [resultColumns, List.forall_mem_cons]
    exact ⟨h0, h1, h2, h3, h4, h5, h6, h7, h10, List.forall_mem_nil _⟩
  have hFolder : (readTable rows).place "folder" = .ok 1 := place_readTable (by decide)
  rw [readRows_tableText]
  exact bind_eq_ok_iff.2 ⟨_, hKept, bind_eq_ok_iff.2 ⟨_, hNumbers,
    bind_eq_ok_iff.2 ⟨_, hFolder, hEqual ▸ hOthers⟩⟩⟩

end Places

/-! ### Tables of one time -/

/-- A row of a table with one time for all times. -/
def plainRow (solver folder time : String) : SummaryRow :=
  { solver, folder, avgTime := time, minTime := time, maxTime := time, avgMemory := "1",
    minMemory := "1", maxMemory := "1", inconclusive := 0, failed := 0, decisions := "2" }

/-- The row that is read. -/
def plainResult (solver : String) (folder time : Cell) : Result :=
  { solver := .text solver, folder, avgTime := time, minTime := time, maxTime := time,
    avgMemory := .signed 1, minMemory := .signed 1, maxMemory := .signed 1, decisions := .signed 2 }

/-- A table of one solver, with one second for every folder. -/
def plainTable (folders : List String) : List SummaryRow :=
  folders.map fun folder => plainRow "a" folder "1"

section Plain

variable (folders : List String)

/-- The words of a column with one text. -/
theorem wordsOf_plainTable {place : Nat} {text : String} (hNull : '\x00' ∉ text.toList)
    (h : ∀ folder, (plainRow "a" folder "1").texts[place]? = some text) :
    wordsOf (plainTable folders) place = folders.map fun _ => text.toList := by
  have hWord : ∀ folder, seen (((plainRow "a" folder "1").texts.map String.toList).getD place []) =
      text.toList := by
    intro folder
    rw [List.getD_eq_getElem?_getD, List.getElem?_map, h, Option.map_some, Option.getD_some,
      seen_of_not_mem hNull]
  rw [wordsOf, plainTable, List.map_map]
  exact List.map_congr_left fun folder _ => hWord folder

/-- A column with one number. -/
theorem column_plainTable_number {place n : Nat} (hPlace : place < 11) (hSmall : n < 2 ^ 63)
    (h : ∀ folder, (plainRow "a" folder "1").texts[place]? = some (toString n)) :
    (readTable (plainTable folders)).column place =
      (folders.map fun _ => Int64.ofNat n).map .signed := by
  have hWords := wordsOf_plainTable folders (Benchmark.not_mem_toString (by decide) n) h
  have hDigits : (folders.map fun _ => (toString n).toList) =
      (folders.map fun _ => n).map (Nat.toDigits 10) := by simp
  rw [column_readTable hPlace, hWords, hDigits, column_toDigits _ (List.forall_mem_map.2
    fun _ _ => hSmall), List.map_map, List.map_map]
  rfl

theorem column_plainTable_solver :
    (readTable (plainTable folders)).column 0 = folders.map fun _ => .text "a" := by
  have hWords : wordsOf (plainTable folders) 0 = folders.map fun _ => "a".toList :=
    wordsOf_plainTable folders (by decide) fun _ => rfl
  rw [column_readTable (by decide), hWords,
    column_of_prose _ (List.forall_mem_map.2 fun _ _ => .inl Benchmark.isProse_letter),
    List.map_map]
  rfl

/-- A table of one time is read as it is. -/
theorem readRows_plainTable {cells : List Cell}
    (h : column 65536 (folders.map fun folder => seen folder.toList) = cells) :
    standard.readRows (Benchmark.tableText (plainTable folders)).toList =
      .ok (cells.map fun folder => plainResult "a" folder (.signed 1)) := by
  have hSame : ∀ c : Cell, (folders.map fun _ => c) = cells.map fun _ => c := by
    intro c
    rw [List.map_const', List.map_const', ← h, length_column, List.length_map]
  have hFolders : (readTable (plainTable folders)).column 1 = cells := by
    rw [column_readTable (by decide), portion_eleven, ← h, wordsOf, plainTable, List.map_map]
    rfl
  have hNumber : ∀ place n, place < 11 → n < 2 ^ 63 →
      (∀ folder, (plainRow "a" folder "1").texts[place]? = some (toString n)) →
      numericColumn ((readTable (plainTable folders)).column place) =
          (readTable (plainTable folders)).column place ∧
        (readTable (plainTable folders)).column place =
          cells.map fun _ => .signed (.ofNat n) := by
    intro place n hLess hSmall hText
    rw [column_plainTable_number folders hLess hSmall hText, numericColumn_signed, List.map_map,
      ← hSame]
    exact ⟨rfl, rfl⟩
  obtain ⟨h2, h2'⟩ := hNumber 2 1 (by decide) (by decide) fun _ => rfl
  obtain ⟨h3, h3'⟩ := hNumber 3 1 (by decide) (by decide) fun _ => rfl
  obtain ⟨h4, h4'⟩ := hNumber 4 1 (by decide) (by decide) fun _ => rfl
  obtain ⟨h5, h5'⟩ := hNumber 5 1 (by decide) (by decide) fun _ => rfl
  obtain ⟨h6, h6'⟩ := hNumber 6 1 (by decide) (by decide) fun _ => rfl
  obtain ⟨h7, h7'⟩ := hNumber 7 1 (by decide) (by decide) fun _ => rfl
  obtain ⟨h10, h10'⟩ := hNumber 10 2 (by decide) (by decide) fun _ => rfl
  have hSolvers := column_plainTable_solver folders
  rw [hSame] at hSolvers
  have hCounts : (readTable (plainTable folders)).column 8 =
      (folders.map fun _ => Int64.ofNat 0).map .signed :=
    column_plainTable_number folders (by decide) (by decide) fun _ => rfl
  refine readRows_eq_ok hCounts (List.forall_mem_map.2 fun _ _ => by decide) ?_ ?_
  · simp only [List.forall_mem_cons]
    exact ⟨h2, h3, h4, h5, h6, h7, h10, List.forall_mem_nil _⟩
  · simp only [resultPlaces, List.forall_mem_cons, List.map_map]
    exact ⟨hSolvers, hFolders.trans (List.map_id cells).symm, h2', h3', h4', h5', h6', h7', h10',
      List.forall_mem_nil _⟩

end Plain

end Chart

end SatLab
