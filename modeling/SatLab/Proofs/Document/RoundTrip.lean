import SatLab.Document.Reader
import SatLab.Proofs.Document.Numeral
import SatLab.Proofs.Document.QuotedText

/-! A document is read back from its text. The reader takes in the text of a part, whatever is open
around it and whatever follows it, and delivers the part to what is open. -/

namespace SatLab

namespace Token

variable {c : Char} {gap rest after : List Char} {t : Token}

theorem scan_space (h : isSpace c = true) : scan (c :: rest) = scan rest := by
  rw [scan, if_pos h]

/-- Blanks before a token are passed over. -/
theorem scan_gap (h : ∀ c ∈ gap, isSpace c = true) : scan (gap ++ rest) = scan rest := by
  induction gap with
  | nil => rfl
  | cons c gap ih =>
      rw [List.forall_mem_cons] at h
      rw [List.cons_append, scan_space h.1, ih h.2]

theorem scan_token (hSpace : isSpace c = false) (hNext : next? c rest = some (t, after)) :
    scan (c :: rest) = t :: scan after := by
  rw [scan, if_neg (by simp [hSpace])]
  split
  · simp_all
  · simp_all

theorem scan_mark (hSpace : isSpace c = false) (h : mark? c = some t) :
    scan (c :: rest) = t :: scan rest :=
  scan_token hSpace (by rw [next?, h])

theorem scan_openList : scan ('[' :: rest) = .openList :: scan rest := scan_mark (by decide) rfl

theorem scan_closeList : scan (']' :: rest) = .closeList :: scan rest := scan_mark (by decide) rfl

theorem scan_openRecord : scan ('\x7b' :: rest) = .openRecord :: scan rest :=
  scan_mark (by decide) rfl

theorem scan_closeRecord : scan ('\x7d' :: rest) = .closeRecord :: scan rest :=
  scan_mark (by decide) rfl

theorem scan_comma : scan (',' :: rest) = .comma :: scan rest := scan_mark (by decide) rfl

theorem scan_colon : scan (':' :: rest) = .colon :: scan rest := scan_mark (by decide) rfl

/-- A written text is found as one token, character by character. -/
theorem scan_text (text : String) :
    scan (escapedText text ++ rest) = .text (text.toList.map Char.toNat) :: scan rest := by
  have hBody := QuotedText.body?_escapedText text rest
  rw [escapedText, List.cons_append, List.append_assoc]
  refine scan_token (by decide) ?_
  simp only [next?, show mark? '"' = none by decide, if_true, List.singleton_append, hBody,
    Option.map_some]

/-- The first character of a numeral begins no other word. -/
theorem mark?_of_isDigit (h : c.isDigit = true ∨ c = '-') :
    isSpace c = false ∧ mark? c = none ∧ c ≠ '"' := by
  have hAll : ∀ d ∈ [' ', '\t', '\n', '\r', '[', ']', '\x7b', '\x7d', ',', ':', '"'],
      d.isDigit = false ∧ d ≠ '-' := by simp
  have hOther : c ∉ [' ', '\t', '\n', '\r', '[', ']', '\x7b', '\x7d', ',', ':', '"'] := by
    intro hMem
    obtain ⟨hDigit, hMinus⟩ := hAll c hMem
    exact h.elim (by simp [hDigit]) hMinus
  simp only [List.mem_cons, List.not_mem_nil, or_false, not_or] at hOther
  simp [isSpace, mark?, List.lookup_eq_none_iff, hOther]

theorem first_of_read? {chars : List Char} {result : Numeral × List Char}
    (h : Numeral.read? chars = some result) :
    ∃ c rest, chars = c :: rest ∧ (c.isDigit = true ∨ c = '-') := by
  cases chars with
  | nil => cases h
  | cons c rest =>
      refine ⟨c, rest, rfl, ?_⟩
      by_cases hMinus : c = '-'
      · exact .inr hMinus
      · refine .inl (Bool.not_eq_false _ ▸ fun hDigit => ?_)
        simp [Numeral.read?, hMinus, hDigit] at h

/-- A numeral is found as one token. -/
theorem scan_numeral {n : Numeral} {chars : List Char}
    (h : Numeral.read? chars = some (n, after)) : scan chars = ofNumeral n :: scan after := by
  obtain ⟨c, rest, rfl, hFirst⟩ := first_of_read? h
  obtain ⟨hSpace, hMark, hQuote⟩ := mark?_of_isDigit hFirst
  refine scan_token hSpace ?_
  simp only [next?, hMark, if_neg hQuote, h]

/-- A plain word ends by itself. -/
theorem scan_word {spelling : List Char} {d : Document} (h : (spelling, d) ∈ words) :
    scan (spelling ++ rest) = .plain d :: scan rest := by
  simp only [words, List.mem_cons, List.not_mem_nil, or_false, Prod.mk.injEq] at h
  rcases h with ⟨rfl, rfl⟩ | ⟨rfl, rfl⟩ | ⟨rfl, rfl⟩ | ⟨rfl, rfl⟩ | ⟨rfl, rfl⟩ | ⟨rfl, rfl⟩
  all_goals exact scan_token (by decide) rfl

end Token

namespace Document

theorem hasTooManyDigits_int (k : Int) :
    (int k).hasTooManyDigits = (Number.whole k).hasTooManyDigits := rfl

theorem anyTooManyDigits_eq_false {items : List Document} :
    anyTooManyDigits items = false ↔ ∀ d ∈ items, d.hasTooManyDigits = false := by
  induction items with
  | nil => simp [anyTooManyDigits]
  | cons d items ih => simp [anyTooManyDigits, ih]

theorem anyFieldTooManyDigits_eq_false {fields : List (String × Document)} :
    anyFieldTooManyDigits fields = false ↔
      ∀ field ∈ fields, field.2.hasTooManyDigits = false := by
  induction fields with
  | nil => simp [anyFieldTooManyDigits]
  | cons field fields ih => simp [anyFieldTooManyDigits, ih]

/-- A document whose text can be read inside at most so many lists and records: its texts have no
surrogate that stands alone, and no record has a name twice. -/
inductive Regular : Nat → Document → Prop where
  | null (n : Nat) : Regular n .null
  | flag (n : Nat) (value : Bool) : Regular n (.flag value)
  | number (n : Nat) (value : Number) : Regular n (.number value)
  | text (n : Nat) (value : String) : Regular n (.text value)
  | list {n : Nat} {items : List Document} (h : ∀ d ∈ items, Regular n d) :
      Regular (n + 1) (.list items)
  | record {n : Nat} {fields : List (String × Document)} (hNames : (fields.map Prod.fst).Nodup)
      (h : ∀ field ∈ fields, Regular n field.2) : Regular (n + 1) (.record fields)

/-- A layout that only puts white space between words. -/
structure Layout.Blank (layout : Layout) : Prop where
  lineStart : ∀ depth, ∀ c ∈ layout.lineStart depth, Token.isSpace c = true
  space : ∀ c ∈ layout.space, Token.isSpace c = true

/-- The indented layout puts nothing but blanks between tokens. -/
theorem Layout.blank_indented : Layout.indented.Blank where
  lineStart := by
    intro depth c hc
    rcases List.mem_cons.1 hc with rfl | hSpace
    · rfl
    · rw [List.eq_of_mem_replicate hSpace]
      rfl
  space := by simp [indented]

/-- What the reader makes of a text from a state on. -/
def readOn (limit : Nat) (r : Reading) (chars : List Char) : Except DocumentFault Reading :=
  (Token.scan chars).foldlM (Reading.step limit) r

section Reading

variable {layout : Layout} {limit depth n : Nat} {stack : List Unfinished} {rest : List Char}

/-- Reading on is a step for the first token and reading on from there. -/
theorem readOn_token {r : Reading} {t : Token} {chars rest : List Char}
    (h : Token.scan chars = t :: Token.scan rest) :
    readOn limit r chars = r.step limit t >>= fun next => readOn limit next rest := by
  rw [readOn, h, List.foldlM_cons]
  rfl

/-- Blanks do not change what is read. -/
theorem readOn_gap {r : Reading} {gap : List Char} (h : ∀ c ∈ gap, Token.isSpace c = true) :
    readOn limit r (gap ++ rest) = readOn limit r rest := by
  rw [readOn, Token.scan_gap h, readOn]

theorem step_value {expected : Expected} {t : Token}
    (h : expected = .value ∨ expected = .valueOrEnd) (ht : t ≠ .closeList) :
    Reading.step limit { expected, stack } t = Reading.readValue limit stack t := by
  rcases h with rfl | rfl
  · rfl
  · cases t <;> first | rfl | exact absurd rfl ht

/-- The reader takes in the text of a document as a whole. -/
def ReadsBack (layout : Layout) (limit n : Nat) (d : Document) : Prop :=
  ∀ (depth : Nat) (stack : List Unfinished) (rest : List Char) (expected : Expected),
    Numeral.Ends rest → stack.length + n ≤ limit →
    (expected = .value ∨ expected = .valueOrEnd) →
    readOn limit { expected, stack } (d.chars layout depth ++ rest) =
      readOn limit (Reading.deliver d stack) rest

/-- A word is read back as the document it is written for. -/
theorem readsBack_word {spelling : List Char} {d : Document} (hWord : (spelling, d) ∈ Token.words)
    (hChars : ∀ depth, d.chars layout depth = spelling) : ReadsBack layout limit n d := by
  intro depth stack rest expected _ _ hExpected
  rw [hChars, readOn_token (Token.scan_word hWord),
    step_value (t := .plain d) hExpected nofun]
  rfl

/-- Every text is read back. -/
theorem readsBack_text (value : String) : ReadsBack layout limit n (.text value) := by
  intro depth stack rest expected _ _ hExpected
  rw [chars, readOn_token (Token.scan_text value), step_value (t := .text _) hExpected nofun,
    Reading.readValue, ofCodes_toNat]
  rfl

/-- A number is read back if its numeral is. -/
theorem readsBack_numeral {value : Number} (numeral : Numeral)
    (hToken : Token.ofNumeral numeral = .plain (.number value))
    (hRead : ∀ rest, Numeral.Ends rest →
      Numeral.read? (value.chars ++ rest) = some (numeral, rest)) :
    ReadsBack layout limit n (.number value) := by
  intro depth stack rest expected hRest _ hExpected
  rw [chars, readOn_token (Token.scan_numeral (hRead rest hRest)), hToken,
    step_value (t := .plain _) hExpected nofun]
  rfl

/-- Every number is read back, unless it has too many digits. -/
theorem readsBack_number {value : Number} (h : value.hasTooManyDigits = false) :
    ReadsBack layout limit n (.number value) := by
  cases value with
  | whole k =>
      rw [Number.hasTooManyDigits_whole, Number.digitBound, Nat.pow_eq] at h
      exact readsBack_numeral (.integer k) rfl fun rest => Numeral.read?_int h
  | real x =>
      cases x with
      | finite negative units hUnits =>
          exact readsBack_numeral (.real (.finite negative units hUnits)) rfl
            fun rest => Numeral.read?_text
      | infinite negative =>
          have hWord : ((Number.real (.infinite negative)).chars,
              .real (.infinite negative)) ∈ Token.words := by
            cases negative <;> simp [Token.words, Number.chars]
          exact readsBack_word hWord fun _ => rfl
      | undefined =>
          have hWord : ((Number.real .undefined).chars, .real .undefined) ∈ Token.words := by
            simp [Token.words, Number.chars]
          exact readsBack_word hWord fun _ => rfl

theorem ends_cons {c : Char} (h : Numeral.Ends [c]) (rest : List Char) :
    Numeral.Ends (c :: rest) := h

theorem ends_gap {gap : List Char} (hGap : ∀ c ∈ gap, Token.isSpace c = true)
    (hRest : Numeral.Ends rest) : Numeral.Ends (gap ++ rest) := by
  have hAll : ∀ c ∈ [' ', '\t', '\n', '\r'], Numeral.Ends [c] := by
    simp [Numeral.Ends]
  cases gap with
  | nil => exact hRest
  | cons c gap =>
      refine ends_cons (hAll c ?_) _
      simpa [Token.isSpace, or_assoc] using hGap c List.mem_cons_self

/-- The name of a field waits for its value. -/
theorem readOn_name (name : String) (chars : List Char) {read : List (String × Document)}
    {expected : Expected} (hExpected : expected = .name ∨ expected = .nameOrEnd) :
    readOn limit { expected, stack := .record read :: stack }
      (escapedText name ++ ':' :: ' ' :: chars) =
      readOn limit { expected := .value, stack := .field read name :: stack } chars := by
  have hName : Reading.step limit { expected, stack := .record read :: stack }
      (.text (name.toList.map Char.toNat)) =
        .ok { expected := .colon name, stack := .record read :: stack } := by
    rcases hExpected with rfl | rfl <;> simp only [Reading.step, lossyText_toNat]
  rw [readOn_token (Token.scan_text name), hName]
  change readOn limit _ (':' :: _) = _
  rw [readOn_token Token.scan_colon]
  change readOn limit { expected := .value, stack := .field read name :: stack } (' ' :: _) = _
  rw [readOn, Token.scan_space rfl, ← readOn]

/-- A field goes behind those on the stack. -/
theorem readOn_field (hStack : stack.length + 1 + n ≤ limit) {name : String} {d : Document}
    (h : ReadsBack layout limit n d) {read : List (String × Document)} {expected : Expected}
    (hExpected : expected = .name ∨ expected = .nameOrEnd) (hRest : Numeral.Ends rest)
    (hNew : name ∉ read.map Prod.fst) :
    readOn limit { expected, stack := .record read :: stack }
      (escapedText name ++ ':' :: ' ' :: (d.chars layout depth ++ rest)) =
      readOn limit { expected := .separator, stack := .record (read ++ [(name, d)]) :: stack } rest := by
  rw [readOn_name name _ hExpected,
    h depth (.field read name :: stack) rest .value hRest hStack (.inl rfl), Reading.deliver,
    putField_of_not_mem hNew]

section Parts

variable (hLayout : layout.Blank)

include hLayout

theorem ends_items (items : List Document) :
    Numeral.Ends
      (itemsChars layout (depth + 1) items ++ (layout.lineStart depth ++ ']' :: rest)) := by
  cases items with
  | nil =>
      rw [itemsChars, List.nil_append]
      exact ends_gap (hLayout.lineStart depth) (ends_cons (c := ']') (by simp [Numeral.Ends]) rest)
  | cons d items => exact ends_cons (c := ',') (by simp [Numeral.Ends]) _

/-- The items that are left go behind those on the stack. -/
theorem readOn_items (hStack : stack.length + 1 + n ≤ limit) {items : List Document}
    (h : ∀ d ∈ items, ReadsBack layout limit n d) (read : List Document) :
    readOn limit { expected := .separator, stack := .list read :: stack }
      (itemsChars layout (depth + 1) items ++ (layout.lineStart depth ++ ']' :: rest)) =
      readOn limit (Reading.deliver (.list (read.reverse ++ items)) stack) rest := by
  induction items generalizing read with
  | nil =>
      rw [itemsChars, List.nil_append, readOn_gap (hLayout.lineStart depth),
        readOn_token Token.scan_closeList, List.append_nil]
      rfl
  | cons d items ih =>
      rw [List.forall_mem_cons] at h
      have hNext := ih h.2 (d :: read)
      rw [List.reverse_cons, List.append_assoc, List.singleton_append] at hNext
      simp only [itemsChars, List.cons_append, List.append_assoc]
      rw [readOn_token Token.scan_comma]
      change readOn limit _ _ = _
      rw [readOn_gap hLayout.space, readOn_gap (hLayout.lineStart (depth + 1)),
        h.1 (depth + 1) (.list read :: stack) _ .value (ends_items hLayout items) hStack (.inl rfl),
        ← hNext]
      rfl

/-- A list is read back if its items are, one level deeper. -/
theorem readsBack_list {items : List Document} (h : ∀ d ∈ items, ReadsBack layout limit n d) :
    ReadsBack layout limit (n + 1) (.list items) := by
  intro depth stack rest expected hRest hStack hExpected
  have hOpen : Reading.readValue limit stack .openList =
      .ok { expected := .valueOrEnd, stack := .list [] :: stack } := by
    rw [Reading.readValue, Reading.openInside, if_neg (by omega)]
    rfl
  cases items with
  | nil =>
      rw [chars, List.cons_append, readOn_token Token.scan_openList,
        step_value (t := .openList) hExpected nofun, hOpen]
      change readOn limit _ (']' :: rest) = _
      rw [readOn_token Token.scan_closeList]
      rfl
  | cons d items =>
      rw [List.forall_mem_cons] at h
      simp only [chars, List.cons_append, List.append_assoc]
      rw [readOn_token Token.scan_openList, step_value (t := .openList) hExpected nofun, hOpen]
      change readOn limit _ _ = _
      rw [readOn_gap (hLayout.lineStart (depth + 1)),
        h.1 (depth + 1) (.list [] :: stack) _ .valueOrEnd (ends_items hLayout items)
          (by rw [List.length_cons]; omega) (.inr rfl)]
      exact readOn_items hLayout (by omega) h.2 [d]

theorem ends_fields (fields : List (String × Document)) :
    Numeral.Ends (fieldsChars layout (depth + 1) fields ++
      (layout.lineStart depth ++ '\x7d' :: rest)) := by
  cases fields with
  | nil =>
      rw [fieldsChars, List.nil_append]
      exact ends_gap (hLayout.lineStart depth)
        (ends_cons (c := '\x7d') (by simp [Numeral.Ends]) rest)
  | cons field fields => exact ends_cons (c := ',') (by simp [Numeral.Ends]) _

/-- The fields that are left go behind those on the stack. -/
theorem readOn_fields (hStack : stack.length + 1 + n ≤ limit)
    {fields : List (String × Document)} (h : ∀ field ∈ fields, ReadsBack layout limit n field.2)
    (read : List (String × Document)) (hNames : ((read ++ fields).map Prod.fst).Nodup) :
    readOn limit { expected := .separator, stack := .record read :: stack }
      (fieldsChars layout (depth + 1) fields ++ (layout.lineStart depth ++ '\x7d' :: rest)) =
      readOn limit (Reading.deliver (.record (read ++ fields)) stack) rest := by
  induction fields generalizing read with
  | nil =>
      rw [fieldsChars, List.nil_append, readOn_gap (hLayout.lineStart depth),
        readOn_token Token.scan_closeRecord, List.append_nil]
      rfl
  | cons field fields ih =>
      obtain ⟨name, d⟩ := field
      rw [List.forall_mem_cons] at h
      have hNew : name ∉ read.map Prod.fst := by
        rw [List.map_append, List.map_cons] at hNames
        exact fun hMem => (List.nodup_append.1 hNames).2.2 name hMem name List.mem_cons_self rfl
      simp only [fieldsChars, List.cons_append, List.append_assoc]
      rw [readOn_token Token.scan_comma]
      change readOn limit _ _ = _
      rw [readOn_gap hLayout.space, readOn_gap (hLayout.lineStart (depth + 1)),
        readOn_field hStack h.1 (.inl rfl) (ends_fields hLayout fields) hNew,
        ih h.2 _ (by rwa [List.append_assoc, List.singleton_append]), List.append_assoc,
        List.singleton_append]

/-- A record of distinct names is read back if its values are, one level deeper. -/
theorem readsBack_record {fields : List (String × Document)} (hNames : (fields.map Prod.fst).Nodup)
    (h : ∀ field ∈ fields, ReadsBack layout limit n field.2) :
    ReadsBack layout limit (n + 1) (.record fields) := by
  intro depth stack rest expected hRest hStack hExpected
  have hOpen : Reading.readValue limit stack .openRecord =
      .ok { expected := .nameOrEnd, stack := .record [] :: stack } := by
    rw [Reading.readValue, Reading.openInside, if_neg (by omega)]
    rfl
  cases fields with
  | nil =>
      rw [chars, List.cons_append, readOn_token Token.scan_openRecord,
        step_value (t := .openRecord) hExpected nofun, hOpen]
      change readOn limit _ ('\x7d' :: rest) = _
      rw [readOn_token Token.scan_closeRecord]
      rfl
  | cons field fields =>
      obtain ⟨name, d⟩ := field
      rw [List.forall_mem_cons] at h
      simp only [chars, List.cons_append, List.append_assoc]
      rw [readOn_token Token.scan_openRecord, step_value (t := .openRecord) hExpected nofun, hOpen]
      change readOn limit _ _ = _
      rw [readOn_gap (hLayout.lineStart (depth + 1)),
        readOn_field (by omega) h.1 (.inr rfl) (ends_fields hLayout fields) (by simp)]
      exact readOn_fields hLayout (by omega) h.2 [(name, d)] hNames

end Parts

end Reading

/-- The text of a document can be read unless a number has too many digits. -/
theorem Regular.readsBack {layout : Layout} (hLayout : layout.Blank) {limit n : Nat} {d : Document}
    (h : Regular n d) (hShort : d.hasTooManyDigits = false) : ReadsBack layout limit n d := by
  induction h with
  | null n =>
      have hWord : ("null".toList, Document.null) ∈ Token.words := by simp [Token.words]
      exact readsBack_word hWord fun _ => rfl
  | flag n value =>
      have hWord : (if value then "true".toList else "false".toList, Document.flag value) ∈
          Token.words := by
        cases value <;> simp [Token.words]
      exact readsBack_word hWord fun _ => rfl
  | number n value => exact readsBack_number hShort
  | text n value => exact readsBack_text value
  | list _ ih =>
      rw [hasTooManyDigits, anyTooManyDigits_eq_false] at hShort
      exact readsBack_list hLayout fun d hd => ih d hd (hShort d hd)
  | record hNames _ ih =>
      rw [hasTooManyDigits, anyFieldTooManyDigits_eq_false] at hShort
      exact readsBack_record hLayout hNames fun field hField => ih field hField (hShort field hField)

/-- A document is read back from its text. -/
theorem parse_chars {layout : Layout} (hLayout : layout.Blank) {limit : Nat} {d : Document}
    (h : Regular limit d) (hShort : d.hasTooManyDigits = false) :
    parse (String.ofList (d.chars layout 0)) limit = .ok d := by
  have hReads : ReadsBack layout limit limit d := h.readsBack hLayout hShort
  have hRead := hReads 0 [] [] .value (by simp [Numeral.Ends]) (by simp) (.inl rfl)
  have hEnd : readOn limit (Reading.deliver d []) [] =
      .ok { expected := .nothing d, stack := [] } := by
    rw [readOn, Token.scan]
    rfl
  rw [List.append_nil, hEnd] at hRead
  rw [parse, String.toList_ofList, ofTokens]
  change (readOn limit _ _ >>= _) = _
  rw [hRead]
  rfl

end Document

end SatLab
