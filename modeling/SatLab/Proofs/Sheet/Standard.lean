import Mathlib.Data.List.Basic
import SatLab.Proofs.Sheet.Reading
import SatLab.Proofs.Sheet.Typing
import SatLab.Sheet.Results

/-! The engine that reads sheets does what is documented of engines: sheets that are spelled are
read as they are spelled, and columns have the types of their words. -/

namespace SatLab

namespace Sheet

/-! ### The names of columns -/

/-- Distinct names of columns are kept as they are. -/
theorem distinctNames_of_nodup {all seen : List String} {entries : List (String × Nat)}
    (hNodup : (entries.map Prod.fst).Nodup) (hSeen : ∀ entry ∈ entries, entry.1 ∉ seen) :
    distinctNames all seen entries = all := by
  induction entries generalizing seen with
  | nil => rfl
  | cons entry entries ih =>
      rw [List.map_cons, List.nodup_cons] at hNodup
      rw [List.forall_mem_cons] at hSeen
      have hNew : seen.contains entry.1 = false := by simpa using hSeen.1
      rw [distinctNames, hNew, if_neg Bool.false_ne_true]
      refine ih hNodup.2 fun other hOther hMem => ?_
      rcases List.mem_cons.1 hMem with hSame | hBefore
      · exact hNodup.1 (hSame ▸ List.mem_map_of_mem hOther)
      · exact hSeen.2 other hOther hBefore

/-- Different words are names of columns as they are. -/
theorem columnNames_of_distinct {header : List (List Char)} (hNodup : header.Nodup)
    (hNamed : ∀ name ∈ header, name ≠ []) : columnNames header = header.map String.ofList := by
  let named := header.zipIdx.map fun entry => (String.ofList entry.1, entry.2)
  have hWords : (header.zipIdx.map fun entry => (columnName entry.1 entry.2, entry.2)) = named := by
    apply List.map_congr_left
    intro entry hEntry
    have hName := hNamed entry.1 (List.fst_mem_of_mem_zipIdx hEntry)
    simp [columnName, hName]
  have hFirst : named.map Prod.fst = header.map String.ofList := by
    conv_rhs => rw [← List.zipIdx_map_fst 0 header, List.map_map]
    exact List.map_map
  have hBlank : ∀ place : Nat, (header[place]? == some []) = false := by
    intro place
    cases hFound : header[place]? with
    | none => rfl
    | some name => simpa using hNamed name (List.mem_of_getElem? hFound)
  have hAll : (header.map String.ofList).Nodup := hNodup.map fun _ _ => String.ofList_injective
  have hBlanks : named.filter (fun entry => header[entry.2]? == some []) = [] := by
    simp [hBlank]
  have hOthers : named.filter (fun entry => !(header[entry.2]? == some [])) = named := by
    rw [List.filter_eq_self]
    intro entry _
    rw [hBlank]
    rfl
  simp only [columnNames, hWords, hBlanks, hOthers, List.append_nil, hFirst]
  exact distinctNames_of_nodup (by rwa [hFirst]) fun _ _ => List.not_mem_nil

/-! ### Rows of columns -/

section Rows

variable {count : Nat} {columns : List (List Cell)}
  (h : ∀ column ∈ columns, column.length = count)

include h

theorem length_cellRows : (cellRows count columns).length = count := by
  induction columns with
  | nil => simp [cellRows]
  | cons column columns ih =>
      rw [List.forall_mem_cons] at h
      have hRest : (columns.foldr (List.zipWith (· :: ·)) (List.replicate count [])).length =
          count := ih h.2
      rw [cellRows, List.foldr_cons, List.length_zipWith, hRest, h.1, Nat.min_self]

/-- The cells of rows at a place are those of the column there. -/
theorem map_getD_cellRows (place : Nat) :
    ((cellRows count columns).map fun cells => cells.getD place .missing) =
      columns.getD place (List.replicate count .missing) := by
  induction columns generalizing place with
  | nil => simp [cellRows]
  | cons column columns ih =>
      rw [List.forall_mem_cons] at h
      have hLength := length_cellRows h.2
      have hRows : cellRows count (column :: columns) =
          List.zipWith (· :: ·) column (cellRows count columns) := rfl
      rw [hRows, List.map_zipWith]
      cases place with
      | zero =>
          have hFirst : (column.zip (cellRows count columns)).map Prod.fst = column :=
            List.map_fst_zip (by rw [hLength, h.1])
          simpa [List.zip, List.map_zipWith] using hFirst
      | succ place =>
          have hRest : (column.zip (cellRows count columns)).map Prod.snd =
              cellRows count columns := List.map_snd_zip (by rw [hLength, h.1])
          rw [List.getD_cons_succ, ← ih h.2 place]
          conv_rhs => rw [← hRest]
          simp [List.zip, List.map_zipWith]

/-- Rows put together from columns have these columns. -/
theorem column_rowsOf (names : List String) (leading place : Nat) :
    Table.column { names, rows := rowsOf count leading columns } place =
      columns.getD (leading + place) (List.replicate count .missing) := by
  have hCells : ∀ entry : List Cell × Nat, (entry.1.drop leading).getD place .missing =
      entry.1.getD (leading + place) .missing := by
    simp [List.getD_eq_getElem?_getD]
  rw [← map_getD_cellRows h]
  conv_rhs => rw [← List.zipIdx_map_fst 0 (cellRows count columns)]
  simp only [Table.column, rowsOf, List.map_map, Function.comp_def, hCells]

/-- Without labels in front the rows are numbered. -/
theorem labels_rowsOf : (rowsOf count 0 columns).map Row.label =
    (List.range count).map fun n => [.signed (.ofNat n)] := by
  have hNumbers := List.zipIdx_map_snd 0 (cellRows count columns)
  rw [length_cellRows h, ← List.range_eq_range'] at hNumbers
  rw [← hNumbers, rowsOf, List.map_map, List.map_map]
  rfl

end Rows

/-- The columns of a table that is read. -/
theorem length_columns {size width : Nat} {body : List (List (List Char))} :
    ∀ cells ∈ (columnsOf width body).map (column size), cells.length = body.length := by
  intro cells hCells
  obtain ⟨words, hWords, rfl⟩ := List.mem_map.1 hCells
  obtain ⟨place, -, rfl⟩ := List.mem_map.1 hWords
  rw [length_column, List.length_map]

/-- The table of a text is the one of its rows. -/
theorem exists_rows_of_table {text : List Char} {t : Table} (h : table text = .ok t) :
    ∃ header body, rows text = .ok (header :: body) ∧ t.rows.length = body.length ∧
      ∀ place, t.column place = List.replicate body.length .missing ∨
        ∃ words : List (List Char), words.length = body.length ∧
          t.column place = column (portionOf text) words := by
  obtain ⟨sheet, hSheet, hTable⟩ := bind_eq_ok_iff.1 h
  cases sheet with
  | nil => cases hTable
  | cons header body =>
      cases hTable
      have hPortion : portionOf text = Anchor.portion (widthOf header body) := by
        rw [portionOf, hSheet]
      refine ⟨header, body, hSheet, ?_, fun place => ?_⟩
      · simp [rowsOf, length_cellRows length_columns]
      · rw [column_rowsOf length_columns, hPortion, List.getD_eq_getElem?_getD, List.getElem?_map]
        cases hFound : (columnsOf (widthOf header body) body)[widthOf header body -
            header.length + place]? with
        | none => exact .inl rfl
        | some words =>
            obtain ⟨other, -, rfl⟩ := List.mem_map.1 (List.mem_of_getElem? hFound)
            exact .inr ⟨_, List.length_map _, rfl⟩

/-! ### Sheets -/

/-- A table that is not too wide is typed in portions of more than one row. -/
theorem one_lt_portion {width : Nat} (hSome : 2 ≤ width) (hFew : width ≤ 1000) :
    1 < Anchor.portion width := by
  have hCells : 3 ≤ 1048576 / width := by
    rw [Nat.le_div_iff_mul_le (by omega)]
    omega
  have hLog : 1 ≤ Nat.log2 (1048576 / width - 1) := by
    rw [Nat.le_log2 (by omega)]
    omega
  exact Nat.one_lt_pow (by omega) (by decide)

/-- No name of a column begins with a byte order mark. -/
theorem head?_ne_mark {header : List (List Char)} (h : IsHeader header)
    {body : List (List (List Char))} {text : List Char}
    (hSpells : SpellsSheet (header :: body) text) : text.head? ≠ some '\ufeff' := by
  obtain _ | ⟨⟨hCells⟩, -⟩ := hSpells
  cases hCells with
  | nil => exact absurd h.several (by decide)
  | @cons name spelling names spellings hName _ =>
      obtain ⟨c, rest, rfl, hMark⟩ : ∃ c rest, spelling = c :: rest ∧ c ≠ '\ufeff' := by
        cases hName with
        | quoted => exact ⟨'"', _, rfl, by decide⟩
        | plain _ =>
            obtain ⟨c, rest, rfl⟩ := List.exists_cons_of_ne_nil (h.named name List.mem_cons_self)
            refine ⟨c, rest, rfl, ?_⟩
            rintro rfl
            exact absurd (h.plain _ List.mem_cons_self _ List.mem_cons_self) (by decide)
      cases spellings with
      | nil => simpa using hMark
      | cons => simpa [List.intercalate] using hMark

theorem seen_of_isNameChar {name : List Char} (h : ∀ c ∈ name, isNameChar c = true) :
    seen name = name :=
  seen_of_not_mem fun hNull => absurd (h _ hNull) (by decide)

/-- A column is typed as its words ask for. -/
theorem typedAs_column (size : Nat) (words : List (List Char)) :
    TypedAs size words (column size words) where
  prose := column_of_prose size
  mixed := column_of_mixed
  naturals := fun _ hSmall hWords => hWords ▸ column_toDigits size hSmall

/-- Rows of one width are as wide as the names of their columns. -/
theorem widthOf_spelled {header : List (List Char)} {body : List (List (List Char))}
    (h : ∀ row ∈ body, row.length = header.length) :
    widthOf header (body.map (List.map seen)) = header.length := by
  cases body with
  | nil => simp [widthOf]
  | cons row body => simp [widthOf, h row List.mem_cons_self]

section Spelled

variable {header : List (List Char)} {body : List (List (List Char))} {text : List Char}
  (hHeader : IsHeader header) (hBody : ∀ row ∈ body, row.length = header.length)
  (hSpells : SpellsSheet (header :: body) text)

include hHeader hBody hSpells

/-- The rows of a sheet that is spelled, as far as they can be seen. -/
theorem rows_of_spelled : rows text = .ok (header :: body.map (List.map seen)) := by
  have hNames : header.map seen = header := by
    conv_rhs => rw [← List.map_id header]
    exact List.map_congr_left fun name hName => seen_of_isNameChar (hHeader.plain name hName)
  rw [rows_of_spells hSpells hHeader.several (one_lt_portion hHeader.several hHeader.few)
    (List.forall_mem_cons.2 ⟨rfl, hBody⟩) (head?_ne_mark hHeader hSpells), seenRows,
    List.map_cons, hNames]

/-- The columns of a sheet that is spelled are typed portion by portion. -/
theorem table_of_spelled : table text = .ok
    { names := header.map String.ofList,
      rows := rowsOf body.length 0 ((columnsOf header.length (body.map (List.map seen))).map
        (column (Anchor.portion header.length))) } := by
  have hWidth := widthOf_spelled hBody
  rw [table, rows_of_spelled hHeader hBody hSpells]
  simp only [bind, Except.bind, pure, Except.pure, hWidth, Nat.sub_self, List.length_map,
    columnNames_of_distinct hHeader.distinct hHeader.named]

/-- The size of a portion is found from the number of columns. -/
theorem portionOf_spelled : portionOf text = Anchor.portion header.length := by
  rw [portionOf, rows_of_spelled hHeader hBody hSpells]
  exact congrArg Anchor.portion (widthOf_spelled hBody)

/-- A sheet that is spelled is read with its names, its rows, and the words of its columns. -/
theorem readsAs_table : ∃ t, table text = .ok t ∧ ReadsAs (portionOf text) header body t := by
  have hLengths : ∀ cells ∈ (columnsOf header.length (body.map (List.map seen))).map
      (column (Anchor.portion header.length)), cells.length = body.length := fun cells hCells =>
    (length_columns cells hCells).trans (List.length_map _)
  refine ⟨_, table_of_spelled hHeader hBody hSpells, rfl, labels_rowsOf hLengths,
    fun place hPlace => ⟨body.map fun row => seen (row.getD place []), ?_, ?_⟩⟩
  · rw [List.forall₂_map_right_iff, List.forall₂_same]
    exact fun row _ hNull => seen_of_not_mem hNull
  · have hWords : (body.map (List.map seen)).map (fun row => row.getD place []) =
        body.map fun row => seen (row.getD place []) := by
      rw [List.map_map]
      apply List.map_congr_left
      intro row _
      simp only [Function.comp_apply, List.getD_eq_getElem?_getD, List.getElem?_map]
      cases row[place]? <;> rfl
    have hColumn : ((columnsOf header.length (body.map (List.map seen))).map
        (column (Anchor.portion header.length)))[place]? = some (column (portionOf text)
          (body.map fun row => seen (row.getD place []))) := by
      simp only [columnsOf, List.map_map, List.getElem?_map, List.getElem?_range hPlace,
        Option.map_some, Function.comp_apply, portionOf_spelled hHeader hBody hSpells, ← hWords]
    rw [column_rowsOf hLengths, Nat.zero_add, List.getD_eq_getElem?_getD, hColumn,
      Option.getD_some]
    exact typedAs_column _ _

end Spelled

/-! ### The engine -/

theorem isAtMost_signed (limit : Int) (n : Int64) :
    isAtMost limit (.signed n) = .ok (decide (n.toInt ≤ limit)) := by
  have hUnits : (0 : Int) < Binary64.unitsPerOne := by
    unfold Binary64.unitsPerOne
    apply Int.natCast_pos.2
    apply Nat.pow_pos
    decide
  have hLess : (Number.whole n.toInt).lt (.whole limit) = decide (n.toInt < limit) := by
    simp only [Number.lt, Number.place, Int.lt_irrefl, false_or, true_and,
      Int.mul_lt_mul_right hUnits]
  simp only [isAtMost, Cell.number?, Number.equal_whole, hLess, ← Bool.decide_or]
  rw [decide_eq_decide.2]
  omega

theorem atMost_signed (limit : Int) (ns : List Int64) : (ns.map Cell.signed).mapM (isAtMost limit) =
    .ok (ns.map fun n => decide (n.toInt ≤ limit)) := by
  induction ns with
  | nil => rfl
  | cons n ns ih =>
      rw [List.map_cons, List.mapM_cons, isAtMost_signed, ih]
      rfl

/-- The engine that reads sheets is lawful. -/
theorem standard_lawful : standard.Lawful where
  read := readsAs_table
  defined := by
    intro text t h place c hc
    obtain ⟨_, _, -, -, hColumns⟩ := exists_rows_of_table h
    rcases hColumns place with hMissing | ⟨words, -, hColumn⟩
    · rw [hMissing] at hc
      rw [List.eq_of_mem_replicate hc]
      exact nofun
    · exact isDefined_of_mem_column (hColumn ▸ hc)
  oneKind := by
    intro text t h hShort place
    obtain ⟨_, _, -, hLength, hColumns⟩ := exists_rows_of_table h
    rcases hColumns place with hMissing | ⟨words, hWords, hColumn⟩
    · refine ⟨.text, fun c hc => ?_⟩
      rw [hMissing] at hc
      rw [List.eq_of_mem_replicate hc]
      exact Cell.fitsIn_missing _
    · rw [hColumn]
      exact exists_fitsIn_column (by rwa [hWords, ← hLength])
  atMost := atMost_signed
  length_toNumbers := length_numericColumn
  numeric_toNumbers := fun _ => isNumeric_numericColumn

end Sheet

end SatLab
