import SatLab.Proofs.Document.RoundTrip

/-! What is written of a document with a number that is too long ends before this number. Such a
text is no document: its reader still waits for something. -/

namespace SatLab

namespace Document

mutual

/-- A document is written as a whole unless it has a number with too many digits. -/
theorem writtenPart?_eq_none (layout : Layout) (depth : Nat) :
    ∀ d : Document, d.writtenPart? layout depth = none ↔ d.hasTooManyDigits = false
  | .null | .flag _ | .text _ | .unpaired _ => by simp [writtenPart?, hasTooManyDigits]
  | .number value => by
      cases h : value.hasTooManyDigits <;> simp [writtenPart?, hasTooManyDigits, h]
  | .list items => by
      rw [writtenPart?, hasTooManyDigits]
      exact itemsPart?_eq_none layout (depth + 1) _ items
  | .record fields => by
      rw [writtenPart?, hasTooManyDigits]
      exact fieldsPart?_eq_none layout (depth + 1) _ fields

/-- Writing items is cut off exactly at a number with too many digits among them. -/
theorem itemsPart?_eq_none (layout : Layout) (depth : Nat) (start : List Char) :
    ∀ items : List Document,
      itemsPart? layout depth start items = none ↔ anyTooManyDigits items = false
  | [] => by simp [itemsPart?, anyTooManyDigits]
  | d :: items => by
      have hFirst := writtenPart?_eq_none layout depth d
      have hRest := itemsPart?_eq_none layout depth
        (',' :: (layout.space ++ layout.lineStart depth)) items
      rw [itemsPart?, anyTooManyDigits]
      cases hPart : d.writtenPart? layout depth <;> simp_all

/-- Writing fields is cut off exactly at a number with too many digits among them. -/
theorem fieldsPart?_eq_none (layout : Layout) (depth : Nat) (start : List Char) :
    ∀ fields : List (String × Document),
      fieldsPart? layout depth start fields = none ↔ anyFieldTooManyDigits fields = false
  | [] => by simp [fieldsPart?, anyFieldTooManyDigits]
  | (name, d) :: fields => by
      have hFirst := writtenPart?_eq_none layout depth d
      have hRest := fieldsPart?_eq_none layout depth
        (',' :: (layout.space ++ layout.lineStart depth)) fields
      rw [fieldsPart?, anyFieldTooManyDigits]
      cases hPart : d.writtenPart? layout depth <;> simp_all

end

/-- The reader is not done. -/
def Reading.Waits (r : Reading) : Prop := ∀ d, r.expected ≠ .nothing d

/-- What is written of a document before a number that is too long leaves the reader waiting. -/
def LeavesWaiting (layout : Layout) (limit n : Nat) (d : Document) : Prop :=
  ∀ (depth : Nat) (stack : List Unfinished) (expected : Expected) (part : List Char),
    d.writtenPart? layout depth = some part → stack.length + n ≤ limit →
    (expected = .value ∨ expected = .valueOrEnd) →
    ∃ r, readOn limit { expected, stack } part = .ok r ∧ r.Waits

/-- A reader that expects a value is waiting. -/
theorem waits_of_value {expected : Expected} (h : expected = .value ∨ expected = .valueOrEnd)
    (stack : List Unfinished) : Reading.Waits { expected, stack } := by
  rcases h with rfl | rfl <;> exact fun d => nofun

theorem readOn_nil (limit : Nat) (r : Reading) : readOn limit r [] = .ok r := by
  rw [readOn, Token.scan]
  rfl

/-- What is written before a number leaves the reader waiting. -/
theorem leavesWaiting_number (layout : Layout) (limit n : Nat) (value : Number) :
    LeavesWaiting layout limit n (.number value) := by
  intro depth stack expected part hPart _ hExpected
  rw [writtenPart?] at hPart
  split at hPart
  · cases hPart
    exact ⟨_, readOn_nil limit _, waits_of_value hExpected stack⟩
  · cases hPart

section Parts

variable {layout : Layout} (hLayout : layout.Blank) {limit depth n : Nat} {stack : List Unfinished}
  {start part : List Char} {r : Reading}

theorem ends_itemsPart {gap : List Char} {items : List Document}
    (h : itemsPart? layout depth (',' :: gap) items = some part) : Numeral.Ends part := by
  have hComma : ∀ rest, Numeral.Ends (',' :: rest) :=
    ends_cons (c := ',') (by simp [Numeral.Ends])
  cases items with
  | nil => cases h
  | cons d items =>
      rw [itemsPart?] at h
      split at h
      · cases h
        split
        · simp [Numeral.Ends]
        · exact hComma _
      · obtain ⟨more, -, rfl⟩ := Option.map_eq_some_iff.1 h
        exact hComma _

include hLayout

/-- By induction on the items: reading what has been written of a list leaves the list open and the
reader waiting. -/
theorem readOn_itemsPart {items : List Document} (hRegular : ∀ d ∈ items, Regular n d)
    (hItems : ∀ d ∈ items, LeavesWaiting layout limit n d) (hStack : stack.length + 1 + n ≤ limit)
    (hWaits : r.Waits) {expected : Expected} (read : List Document)
    (hExpected : expected = .value ∨ expected = .valueOrEnd)
    (hStart : ∀ chars, readOn limit r (start ++ chars) =
      readOn limit { expected, stack := .list read :: stack } chars)
    (hPart : itemsPart? layout depth start items = some part) :
    ∃ r', readOn limit r part = .ok r' ∧ r'.Waits := by
  induction items generalizing r start expected read part with
  | nil => cases hPart
  | cons d items ih =>
      rw [List.forall_mem_cons] at hRegular hItems
      rw [itemsPart?] at hPart
      cases hItem : d.writtenPart? layout depth with
      | some cut =>
          simp only [hItem, Option.some.injEq] at hPart
          subst hPart
          split
          · exact ⟨r, readOn_nil limit r, hWaits⟩
          · rw [hStart]
            exact hItems.1 depth _ expected cut hItem hStack hExpected
      | none =>
          simp only [hItem] at hPart
          obtain ⟨more, hMore, rfl⟩ := Option.map_eq_some_iff.1 hPart
          have hShort := (writtenPart?_eq_none layout depth d).1 hItem
          have hRead := hRegular.1.readsBack hLayout hShort depth (.list read :: stack) more expected
            (ends_itemsPart hMore) hStack hExpected
          rw [List.append_assoc, hStart, hRead, Reading.deliver]
          have hNext : Reading.Waits
              { expected := .separator, stack := .list (d :: read) :: stack } := by
            rintro _ ⟨⟩
          refine ih hRegular.2 hItems.2 hNext (d :: read) (.inl rfl) (fun chars => ?_) hMore
          simp only [List.cons_append, List.append_assoc]
          rw [readOn_token Token.scan_comma]
          change readOn limit _ _ = _
          rw [readOn_gap hLayout.space, readOn_gap (hLayout.lineStart depth)]

/-- A list cut off inside leaves the reader waiting. -/
theorem leavesWaiting_list {items : List Document} (hRegular : ∀ d ∈ items, Regular n d)
    (hItems : ∀ d ∈ items, LeavesWaiting layout limit n d) :
    LeavesWaiting layout limit (n + 1) (.list items) := by
  intro depth stack expected part hPart hStack hExpected
  have hOpen : Reading.readValue limit stack .openList =
      .ok { expected := .valueOrEnd, stack := .list [] :: stack } := by
    rw [Reading.readValue, Reading.openInside, if_neg (by omega)]
    rfl
  have hDeep : stack.length + 1 + n ≤ limit := by omega
  rw [writtenPart?] at hPart
  refine readOn_itemsPart hLayout hRegular hItems hDeep (waits_of_value hExpected stack) []
    (.inr rfl) (fun chars => ?_) hPart
  rw [List.cons_append, readOn_token Token.scan_openList,
    step_value (t := .openList) hExpected (by rintro ⟨⟩), hOpen]
  change readOn limit _ _ = _
  rw [readOn_gap (hLayout.lineStart (depth + 1))]

omit hLayout in
theorem ends_fieldsPart {gap : List Char} {fields : List (String × Document)}
    (h : fieldsPart? layout depth (',' :: gap) fields = some part) : Numeral.Ends part := by
  have hComma : ∀ rest, Numeral.Ends (',' :: rest) :=
    ends_cons (c := ',') (by simp [Numeral.Ends])
  cases fields with
  | nil => cases h
  | cons field fields =>
      rw [fieldsPart?] at h
      split at h
      · cases h
        exact hComma _
      · obtain ⟨more, -, rfl⟩ := Option.map_eq_some_iff.1 h
        exact hComma _

/-- By induction on the fields: reading what has been written of a record leaves the record open and
the reader waiting. -/
theorem readOn_fieldsPart {fields : List (String × Document)}
    (hRegular : ∀ field ∈ fields, Regular n field.2)
    (hFields : ∀ field ∈ fields, LeavesWaiting layout limit n field.2)
    (hStack : stack.length + 1 + n ≤ limit) {expected : Expected}
    (read : List (String × Document)) (hNames : ((read ++ fields).map Prod.fst).Nodup)
    (hExpected : expected = .name ∨ expected = .nameOrEnd)
    (hStart : ∀ chars, readOn limit r (start ++ chars) =
      readOn limit { expected, stack := .record read :: stack } chars)
    (hPart : fieldsPart? layout depth start fields = some part) :
    ∃ r', readOn limit r part = .ok r' ∧ r'.Waits := by
  induction fields generalizing r start expected read part with
  | nil => cases hPart
  | cons field fields ih =>
      obtain ⟨name, d⟩ := field
      rw [List.forall_mem_cons] at hRegular hFields
      rw [fieldsPart?] at hPart
      cases hField : d.writtenPart? layout depth with
      | some cut =>
          simp only [hField, Option.some.injEq] at hPart
          rw [← hPart, List.append_assoc, hStart, readOn_name name cut hExpected]
          exact hFields.1 depth _ .value cut hField hStack (.inl rfl)
      | none =>
          simp only [hField] at hPart
          obtain ⟨more, hMore, rfl⟩ := Option.map_eq_some_iff.1 hPart
          have hShort := (writtenPart?_eq_none layout depth d).1 hField
          have hNew : name ∉ read.map Prod.fst := by
            rw [List.map_append, List.map_cons] at hNames
            exact fun hMem => (List.nodup_append.1 hNames).2.2 name hMem name List.mem_cons_self rfl
          simp only [List.append_assoc, List.cons_append]
          rw [hStart, readOn_field hStack (hRegular.1.readsBack hLayout hShort) hExpected
            (ends_fieldsPart hMore) hNew]
          refine ih hRegular.2 hFields.2 (read ++ [(name, d)])
            (by rwa [List.append_assoc, List.singleton_append]) (.inl rfl) (fun chars => ?_) hMore
          simp only [List.cons_append, List.append_assoc]
          rw [readOn_token Token.scan_comma]
          change readOn limit _ _ = _
          rw [readOn_gap hLayout.space, readOn_gap (hLayout.lineStart depth)]

/-- A record cut off inside leaves the reader waiting. -/
theorem leavesWaiting_record {fields : List (String × Document)}
    (hNames : (fields.map Prod.fst).Nodup) (hRegular : ∀ field ∈ fields, Regular n field.2)
    (hFields : ∀ field ∈ fields, LeavesWaiting layout limit n field.2) :
    LeavesWaiting layout limit (n + 1) (.record fields) := by
  intro depth stack expected part hPart hStack hExpected
  have hOpen : Reading.readValue limit stack .openRecord =
      .ok { expected := .nameOrEnd, stack := .record [] :: stack } := by
    rw [Reading.readValue, Reading.openInside, if_neg (by omega)]
    rfl
  have hDeep : stack.length + 1 + n ≤ limit := by omega
  rw [writtenPart?] at hPart
  refine readOn_fieldsPart hLayout hRegular hFields hDeep [] hNames (.inr rfl)
    (fun chars => ?_) hPart
  rw [List.cons_append, readOn_token Token.scan_openRecord,
    step_value (t := .openRecord) hExpected (by rintro ⟨⟩), hOpen]
  change readOn limit _ _ = _
  rw [readOn_gap (hLayout.lineStart (depth + 1))]

/-- By induction on the document: wherever writing it is cut off, the reader is left waiting. -/
theorem Regular.leavesWaiting {d : Document} (h : Regular n d) : LeavesWaiting layout limit n d := by
  have hWhole : ∀ {n d}, (∀ depth, writtenPart? layout depth d = none) →
      LeavesWaiting layout limit n d := by
    intro n d hNone depth stack expected part hPart
    rw [hNone] at hPart
    cases hPart
  induction h with
  | null n => exact hWhole fun _ => by simp [writtenPart?]
  | flag n value => exact hWhole fun _ => by simp [writtenPart?]
  | number n value => exact leavesWaiting_number layout limit n value
  | text n value => exact hWhole fun _ => by simp [writtenPart?]
  | list h ih => exact leavesWaiting_list hLayout h ih
  | record hNames h ih => exact leavesWaiting_record hLayout hNames h ih

/-- What is written of a document before a number that is too long is no document. -/
theorem parse_writtenPart {d : Document} (h : Regular limit d)
    (hPart : d.writtenPart? layout 0 = some part) :
    parse (String.ofList part) limit = .error .malformed := by
  have hLeaves : LeavesWaiting layout limit limit d := h.leavesWaiting hLayout
  obtain ⟨r, hRead, hWaits⟩ := hLeaves 0 [] .value part hPart (by simp) (.inl rfl)
  rw [parse, String.toList_ofList, ofTokens]
  change (readOn limit _ _ >>= _) = _
  rw [hRead]
  cases hExpected : r.expected with
  | nothing d => exact absurd hExpected (hWaits d)
  | _ =>
      simp only [bind, Except.bind, hExpected]
      rfl

end Parts

end Document

end SatLab
