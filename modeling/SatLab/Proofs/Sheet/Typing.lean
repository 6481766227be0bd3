import SatLab.Proofs.Sheet.Column

/-! The types of the cells of columns. The cells of a portion that is read are of one type or
missing, and none is an undefined number; so are those of a column of one portion. A column that was
made numeric holds no text. -/

namespace SatLab

namespace Sheet

theorem isFinite_of_scaled? {x y : Binary64} {exponent : Int} (h : scaled? x exponent = some y) :
    y.isFinite = true := by
  obtain ⟨hFinite, hValue⟩ := Option.ite_none_right_eq_some.1 h
  rwa [Option.some.inj hValue] at hFinite

/-- A decimal that is read is finite. -/
theorem isFinite_of_readDecimal? {word : List Char} {x : Binary64}
    (h : readDecimal? word = some x) : x.isFinite = true := by
  obtain ⟨-, hSome⟩ := Option.ite_none_left_eq_some.1 h
  exact isFinite_of_scaled? (Option.ite_none_right_eq_some.1 hSome).2

/-- What is read as a real number is defined. -/
theorem readReal?_ne_undefined {word : List Char} {x : Binary64} (h : readReal? word = some x) :
    x ≠ .undefined := by
  rintro rfl
  rw [readReal?] at h
  split at h
  · next hDecimal =>
      rw [h] at hDecimal
      exact absurd (isFinite_of_readDecimal? hDecimal) (by decide)
  · exact nomatch Option.some.inj (Option.ite_none_right_eq_some.1 h).2

open Cell (FitsIn IsNumeric)

namespace ColumnType

/-- The type of the cells of a column. Beside gaps integers are taken in double precision. -/
def cellKind (t : ColumnType) (gaps : Bool) : ColumnType :=
  match t with
  | signed => if gaps then real else signed
  | verbatim => text
  | t => t

theorem fitsIn_readReal? (word : List Char) :
    FitsIn real (((readReal? word).map Cell.real).getD .missing) := by
  cases hRead : readReal? word with
  | none => exact Cell.fitsIn_missing _
  | some x => exact ⟨Cell.isDefined_real (readReal?_ne_undefined hRead), .inr rfl⟩

theorem fitsIn_besideMissing (n : Int) : FitsIn real (besideMissing n) := by
  simp only [besideMissing]
  split
  · exact Cell.fitsIn_missing _
  · exact ⟨Cell.isDefined_real (Binary64.ofInt_ne_undefined n), .inr rfl⟩

/-- Every cell read in a column of some type fits in the column. -/
theorem fitsIn_knownCell (t : ColumnType) (gaps : Bool) (word : List Char) :
    FitsIn (t.cellKind gaps) (t.knownCell gaps word) := by
  cases t with
  | signed =>
      cases gaps with
      | false =>
          simp only [knownCell]
          split
          · exact ⟨Cell.isDefined_of_kind? rfl (by decide), .inr rfl⟩
          · exact Cell.fitsIn_missing _
      | true =>
          simp only [knownCell]
          split
          · next n _ =>
              rw [if_pos trivial]
              exact fitsIn_besideMissing n
          · exact Cell.fitsIn_missing _
  | unsigned =>
      simp only [knownCell]
      split
      · exact ⟨Cell.isDefined_of_kind? rfl (by decide), .inr rfl⟩
      · exact Cell.fitsIn_missing _
  | real => exact fitsIn_readReal? word
  | flag =>
      rw [knownCell]
      cases readFlag? word with
      | none => exact Cell.fitsIn_missing _
      | some value => exact ⟨Cell.isDefined_of_kind? rfl (by decide), .inr rfl⟩
  | text | verbatim => exact ⟨Cell.isDefined_of_kind? rfl (by decide), .inr rfl⟩

end ColumnType

/-- The cells of a portion have one type. -/
theorem exists_fitsIn_portionCells (words : List (List Char)) :
    ∃ k, ∀ c ∈ (portionCells words).2, FitsIn k c := by
  let known := words.filter fun w => !isMissingWord w
  let gaps := decide (known.length < words.length)
  refine ⟨(ColumnType.ofWords known gaps).cellKind gaps, fun c hc => ?_⟩
  rw [portionCells_snd] at hc
  obtain ⟨word, -, rfl⟩ := List.mem_map.1 hc
  rw [cellAmong, ColumnType.cell]
  split
  · exact Cell.fitsIn_missing _
  · exact ColumnType.fitsIn_knownCell _ _ word

/-! ### Joined portions -/

theorem fitsIn_asReal {c : Cell} (h : c.IsDefined) : FitsIn .real c.asReal := by
  rw [Cell.asReal]
  cases hReal : c.real? with
  | none => exact Cell.fitsIn_missing _
  | some x => exact ⟨Cell.isDefined_real (Cell.real?_ne_undefined h hReal), .inr rfl⟩

/-- Where only flags change, and all to one type, cells of one type become cells of one type. -/
theorem exists_fitsIn_of_flags {f : Cell → Cell} {kind : ColumnType} (hKind : kind ≠ .real)
    (hFlag : ∀ value, (f (.flag value)).kind? = some kind)
    (hOther : ∀ c, c.kind? ≠ some .flag → f c = c) (k : ColumnType) :
    ∃ k', ∀ c, FitsIn k c → FitsIn k' (f c) := by
  by_cases hk : k = .flag
  · subst hk
    refine ⟨kind, fun c hc => ?_⟩
    rcases hc.kind with hNone | hIsFlag
    · rw [hOther c (by rw [hNone]; exact nofun)]
      exact ⟨hc.defined, .inl hNone⟩
    · cases c with
      | flag value => exact ⟨Cell.isDefined_of_kind? (hFlag value) hKind, .inr (hFlag value)⟩
      | _ => cases hIsFlag
  · refine ⟨k, fun c hc => ?_⟩
    have hNoFlag : c.kind? ≠ some .flag := by
      rcases hc.kind with hNone | hSome
      · rw [hNone]
        exact nofun
      · rw [hSome]
        exact fun hSame => hk (Option.some.inj hSame)
    rwa [hOther c hNoFlag]

/-- Cells of one type are adjusted to cells of one type. -/
theorem exists_fitsIn_adjustedTo (types : List (Option ColumnType)) (k : ColumnType) :
    ∃ k', ∀ c, FitsIn k c → FitsIn k' (Cell.adjustedTo types c) := by
  have hSigned : ∀ c : Cell, c.kind? ≠ some .flag → c.asSigned = c := by
    intro c hc
    cases c with
    | flag => exact absurd rfl hc
    | _ => rfl
  have hUnsigned : ∀ c : Cell, c.kind? ≠ some .flag → c.asUnsigned = c := by
    intro c hc
    cases c with
    | flag => exact absurd rfl hc
    | _ => rfl
  unfold Cell.adjustedTo
  split_ifs
  · exact ⟨k, fun _ hc => hc⟩
  · exact ⟨.real, fun _ hc => fitsIn_asReal hc.defined⟩
  · exact ⟨.real, fun _ hc => fitsIn_asReal hc.defined⟩
  · exact exists_fitsIn_of_flags (by decide) (fun _ => rfl) hSigned k
  · exact exists_fitsIn_of_flags (by decide) (fun _ => rfl) hUnsigned k
  · exact ⟨k, fun _ hc => hc⟩

/-! ### Columns -/

/-- A column has a cell for each word. -/
theorem length_column (size : Nat) (words : List (List Char)) :
    (column size words).length = words.length := by
  have hLength : (((partsOf size words.length words).map portionCells).flatMap Prod.snd).length =
      (partsOf size words.length words).flatten.length := by
    simp [List.length_flatMap, List.length_flatten, Function.comp_def, portionCells_snd]
  rw [column, List.length_map, hLength, flatten_partsOf (Nat.le_refl _)]

/-- A cell of a column is the one of its portion, adjusted. -/
theorem exists_of_mem_column {size : Nat} {words : List (List Char)} {c : Cell}
    (h : c ∈ column size words) : ∃ part ∈ partsOf size words.length words,
      ∃ d ∈ (portionCells part).2, c = Cell.adjustedTo
        (((partsOf size words.length words).map portionCells).map Prod.fst) d := by
  obtain ⟨d, hd, rfl⟩ := List.mem_map.1 h
  obtain ⟨portion, hPortion, hIn⟩ := List.mem_flatMap.1 hd
  obtain ⟨part, hPart, rfl⟩ := List.mem_map.1 hPortion
  exact ⟨part, hPart, d, hIn, rfl⟩

/-- No cell of a column read from text is undefined. -/
theorem isDefined_of_mem_column {size : Nat} {words : List (List Char)} {c : Cell}
    (h : c ∈ column size words) : c.IsDefined := by
  obtain ⟨part, -, d, hd, rfl⟩ := exists_of_mem_column h
  obtain ⟨k, hFits⟩ := exists_fitsIn_portionCells part
  obtain ⟨k', hAdjusted⟩ := exists_fitsIn_adjustedTo
    (((partsOf size words.length words).map portionCells).map Prod.fst) k
  exact (hAdjusted d (hFits d hd)).defined

/-- A column of one portion has one type. -/
theorem exists_fitsIn_column {size : Nat} {words : List (List Char)}
    (hSize : words.length ≤ size) : ∃ k, ∀ c ∈ column size words, FitsIn k c := by
  cases words with
  | nil => exact ⟨.text, List.forall_mem_nil _⟩
  | cons word words =>
      have hParts : partsOf size (word :: words).length (word :: words) = [word :: words] :=
        partsOf_of_le (List.cons_ne_nil _ _) (Nat.succ_pos _) hSize
      obtain ⟨k, hFits⟩ := exists_fitsIn_portionCells (word :: words)
      obtain ⟨k', hAdjusted⟩ := exists_fitsIn_adjustedTo
        (((partsOf size (word :: words).length (word :: words)).map portionCells).map Prod.fst) k
      refine ⟨k', fun c hc => ?_⟩
      obtain ⟨part, hPart, d, hd, rfl⟩ := exists_of_mem_column hc
      rw [hParts, List.mem_singleton] at hPart
      exact hAdjusted d (hFits d (hPart ▸ hd))

/-! ### Columns that are made numeric -/

theorem isNumeric_realCell {c : Cell} (h : c.IsDefined) : (realCell c).IsNumeric := by
  have hReal : ∀ d : Cell, FitsIn .real d → d.IsNumeric := by
    intro d hd
    refine ⟨hd.defined, ?_⟩
    cases d with
    | text => rcases hd.kind with hKind | hKind <;> cases hKind
    | _ => rfl
  cases c with
  | text value => exact hReal _ (ColumnType.fitsIn_readReal? value.toList)
  | _ => exact hReal _ (fitsIn_asReal h)

/-- A column made numeric has numbers and missing cells only. -/
theorem isNumeric_numericColumn {cells : List Cell} (h : ∀ c ∈ cells, c.IsDefined) :
    ∀ c ∈ numericColumn cells, c.IsNumeric := by
  have hReals : ∀ c ∈ cells.map realCell, c.IsNumeric :=
    List.forall_mem_map.2 fun c hc => isNumeric_realCell (h c hc)
  have hWords : ∀ kind : Int → Cell, (∀ n, (kind n).IsNumeric) → ∀ ns : List Int,
      ∀ c ∈ ns.map kind, c.IsNumeric := fun kind hKind ns =>
    List.forall_mem_map.2 fun n _ => hKind n
  unfold numericColumn
  split_ifs with hText hMissing
  · split
    · split_ifs
      · exact hWords _ (fun _ => ⟨Cell.isDefined_of_kind? rfl (by decide), rfl⟩) _
      · exact hWords _ (fun _ => ⟨Cell.isDefined_of_kind? rfl (by decide), rfl⟩) _
      · exact hReals
    · exact hReals
  · exact hReals
  · intro c hc
    exact ⟨h c hc, by simpa using fun hIs => hText (List.any_eq_true.2 ⟨c, hc, hIs⟩)⟩

theorem length_of_mapM {α β : Type} {f : α → Option β} {items : List α} {found : List β}
    (h : items.mapM f = some found) : found.length = items.length := by
  induction items generalizing found with
  | nil =>
      simp at h
      simp [h]
  | cons item items ih =>
      simp [List.mapM_cons, Option.bind_eq_some_iff] at h
      obtain ⟨first, -, rest, hRest, rfl⟩ := h
      simp [ih hRest]

theorem length_numericColumn (cells : List Cell) : (numericColumn cells).length = cells.length := by
  unfold numericColumn
  split_ifs
  · split
    · next ns hIntegers =>
        have hLength := length_of_mapM hIntegers
        split_ifs <;> simp [hLength]
    · simp
  · simp
  · rfl

end Sheet

end SatLab
