import SatLab.Proofs.Braces.Grammar

/-! Printing and reading brace notation undo each other. What is printed is the text that was read
without white space and with a single dash in front of a negated name. -/

namespace SatLab

/-- A text with a single dash for every row of dashes. -/
def singleDashes : List Char → List Char
  | [] => []
  | c :: rest =>
    if c = '-' ∧ rest.head? = some '-' then singleDashes rest else c :: singleDashes rest

theorem singleDashes_of_not_mem {text : List Char} (h : '-' ∉ text) : singleDashes text = text := by
  induction text with
  | nil => rfl
  | cons c text ih =>
      rw [List.mem_cons, not_or] at h
      rw [singleDashes, if_neg (fun hDash => h.1 hDash.1.symm), ih h.2]

/-- Any number of dashes is written as one. -/
theorem singleDashes_replicate (n : Nat) :
    singleDashes (List.replicate (n + 1) '-') = ['-'] := by
  induction n with
  | zero => rfl
  | succ n ih =>
      rw [List.replicate_succ, singleDashes, if_pos, ih]
      simp [List.replicate_succ]

/-- Rows of dashes do not reach across another character. -/
theorem singleDashes_append_cons {c : Char} (h : c ≠ '-') (text rest : List Char) :
    singleDashes (text ++ c :: rest) = singleDashes text ++ c :: singleDashes rest := by
  induction text with
  | nil => simp [singleDashes, h]
  | cons d text ih =>
      have hHead : (text ++ c :: rest).head? = some '-' ↔ text.head? = some '-' := by
        cases text with
        | nil => simp [h]
        | cons e text => simp
      simp only [List.cons_append, singleDashes, hHead, ih]
      split
      · rfl
      · rfl

/-- Commas keep runs of dashes apart. -/
theorem singleDashes_joined (texts : List (List Char)) :
    singleDashes (joined [','] texts) = joined [','] (texts.map singleDashes) := by
  induction texts with
  | nil => rfl
  | cons text texts ih =>
      by_cases hLast : texts = []
      · rw [hLast, List.map_singleton, joined_singleton, joined_singleton]
      · have hMap : texts.map singleDashes ≠ [] := fun h => hLast (List.map_eq_nil_iff.1 h)
        rw [List.map_cons, joined_cons hLast, joined_cons hMap, ← ih]
        exact singleDashes_append_cons (by decide) _ _

/-- A name that can be read back. -/
def PlainName (name : String) : Prop :=
  ∀ c ∈ name.toList, isBlank c = false ∧ c ∉ structureChars

namespace LiteralSpelling

/-- A literal is written as it was spelled, but for repeated dashes. -/
theorem chars_literal (d : LiteralSpelling) : d.literal.chars = singleDashes d.chars := by
  obtain ⟨dashes, name, hNil, hPlain⟩ := d
  have hDash : '-' ∉ name := fun h => hPlain '-' h (by decide)
  obtain ⟨c, rest, rfl⟩ := List.exists_cons_of_ne_nil hNil
  rw [List.mem_cons, not_or] at hDash
  rw [chars, singleDashes_append_cons (Ne.symm hDash.1), singleDashes_of_not_mem hDash.2]
  cases dashes with
  | zero => simp [literal, Literal.chars, singleDashes]
  | succ n =>
      rw [singleDashes_replicate]
      simp [literal, Literal.chars]

end LiteralSpelling

namespace ClauseSpelling

/-- A clause is written as it was spelled, but for repeated dashes. -/
theorem chars_clause (d : ClauseSpelling) : Clause.chars d.clause = singleDashes d.chars := by
  have hMap : d.clause.map Literal.chars = (d.map LiteralSpelling.chars).map singleDashes := by
    simp only [clause, List.map_map]
    exact List.map_congr_left fun l _ => l.chars_literal
  have hOpen : singleDashes d.chars = '{' :: singleDashes (d.body ++ ['}']) :=
    singleDashes_append_cons (by decide) [] _
  rw [hOpen, singleDashes_append_cons (by decide) d.body [], body, singleDashes_joined, ← hMap]
  rfl

end ClauseSpelling

namespace Spelling

/-- Printing keeps all of a spelling but the number of its dashes. -/
theorem chars_formula (d : Spelling) : d.formula.chars = singleDashes d.chars := by
  rw [chars, singleDashes_joined, Formula.chars, formula, List.map_map, List.map_map]
  exact congrArg _ (List.map_congr_left fun c _ => ClauseSpelling.chars_clause c)

end Spelling

/-- Items that each have a spelling have a list of spellings. -/
theorem exists_spellings {α β γ : Type} {text : α → γ} {value : α → β} {print : β → γ}
    {xs : List β} (h : ∀ x ∈ xs, ∃ d, text d = print x ∧ value d = x) :
    ∃ ds : List α, ds.map text = xs.map print ∧ ds.map value = xs := by
  induction xs with
  | nil => exact ⟨[], rfl, rfl⟩
  | cons x xs ih =>
      rw [List.forall_mem_cons] at h
      obtain ⟨d, hText, hValue⟩ := h.1
      obtain ⟨ds, hTexts, hValues⟩ := ih h.2
      exact ⟨d :: ds, by simp [hText, hTexts], by simp [hValue, hValues]⟩

namespace Literal

/-- A literal with a plain name is spelled by its own text. -/
theorem exists_spelling_of_plain (l : Literal) (h : PlainName l.name) :
    ∃ d : LiteralSpelling, d.chars = l.chars ∧ d.literal = l := by
  obtain ⟨name, negated, hName⟩ := l
  have hNil : name.toList ≠ [] := fun hEmpty => hName (String.toList_eq_nil_iff.1 hEmpty)
  refine ⟨⟨if negated then 1 else 0, name.toList, hNil, fun c hMem => (h c hMem).2⟩, ?_, ?_⟩
  · cases negated <;> rfl
  · cases negated <;> simp [LiteralSpelling.literal]

end Literal

namespace Formula

variable {f : Formula}

theorem plainName_of_occurs (h : ∀ name ∈ f.occurrences, PlainName name) :
    ∀ c ∈ f, ∀ l ∈ c, PlainName l.name := by
  intro c hClause l hLiteral
  exact h l.name (List.mem_map_of_mem (List.mem_flatten.2 ⟨c, hClause, hLiteral⟩))

/-- A formula of plain names is spelled by its own text. -/
theorem exists_spelling_of_plain (h : ∀ name ∈ f.occurrences, PlainName name) :
    ∃ d : Spelling, d.chars = f.chars ∧ d.formula = f := by
  have hClauses : ∀ c ∈ f, ∃ d : ClauseSpelling, d.chars = Clause.chars c ∧ d.clause = c := by
    intro c hClause
    have hLiterals : ∀ l ∈ c, ∃ d : LiteralSpelling, d.chars = l.chars ∧ d.literal = l :=
      fun l hLiteral => l.exists_spelling_of_plain (plainName_of_occurs h c hClause l hLiteral)
    obtain ⟨d, hTexts, hValues⟩ := exists_spellings hLiterals
    exact ⟨d, by rw [ClauseSpelling.chars, ClauseSpelling.body, hTexts, Clause.chars], hValues⟩
  obtain ⟨d, hTexts, hValues⟩ := exists_spellings hClauses
  exact ⟨d, by rw [Spelling.chars, hTexts, Formula.chars], hValues⟩

/-- Nothing but names could bring white space into what is printed. -/
theorem withoutBlanks_chars (h : ∀ name ∈ f.occurrences, PlainName name) :
    withoutBlanks f.chars = f.chars := by
  have hComma : ∀ c ∈ [','], isBlank c = false := List.forall_mem_singleton.2 rfl
  have hFormula : ∀ c ∈ f.chars, isBlank c = false := by
    apply forall_mem_joined hComma
    intro text hText
    obtain ⟨clause, hClause, rfl⟩ := List.mem_map.1 hText
    have hBody : ∀ c ∈ joined [','] (clause.map Literal.chars), isBlank c = false := by
      apply forall_mem_joined hComma
      intro token hToken c hMem
      obtain ⟨l, hLiteral, rfl⟩ := List.mem_map.1 hToken
      have hName := plainName_of_occurs h clause hClause l hLiteral
      rw [Literal.chars] at hMem
      split at hMem
      · rcases List.mem_cons.1 hMem with rfl | hMem
        · decide
        · exact (hName c hMem).1
      · exact (hName c hMem).1
    intro c hMem
    rw [Clause.chars, List.mem_cons, List.mem_append, List.mem_singleton] at hMem
    rcases hMem with rfl | hMem | rfl
    · decide
    · exact hBody c hMem
    · decide
  rw [withoutBlanks, List.filter_eq_self]
  intro c hMem
  rw [hFormula c hMem]
  rfl

/-- Only plain names can be spelled. -/
theorem SpelledBy.plainName {text : String} (h : f.SpelledBy text) :
    ∀ name ∈ f.occurrences, PlainName name := by
  intro name hName c hMem
  refine ⟨h.not_isBlank hName c hMem, ?_⟩
  obtain ⟨d, -, rfl⟩ := h
  obtain ⟨clause, -, l, -, rfl⟩ := Spelling.exists_of_occurs hName
  rw [String.toList_ofList] at hMem
  exact l.name_plain c hMem

/-- A formula of plain names is spelled by the text it is written as. -/
theorem spelledBy_text (h : ∀ name ∈ f.occurrences, PlainName name) : f.SpelledBy f.text := by
  obtain ⟨d, hChars, hFormula⟩ := exists_spelling_of_plain h
  exact ⟨d, by rw [hChars, text, String.toList_ofList, withoutBlanks_chars h], hFormula⟩

/-- Every accepted text is written back without its blanks and without repeated dashes. -/
theorem SpelledBy.text_eq {text : String} (h : f.SpelledBy text) :
    f.text = String.ofList (singleDashes (withoutBlanks text.toList)) := by
  obtain ⟨d, hChars, rfl⟩ := h
  rw [Formula.text, d.chars_formula, hChars]

/-- A formula is read back from what is printed of it if and only if its names are plain. What is
printed of a formula that was read is its text with white space and repeated dashes dropped, and
it is read as the same formula. -/
theorem parse_text_round_trip (f : Formula) (text : String) :
    (Formula.parse f.text = .ok f ↔ ∀ name ∈ f.occurrences, PlainName name) ∧
      (Formula.parse text = .ok f →
        f.text = String.ofList (singleDashes (withoutBlanks text.toList)) ∧
          Formula.parse f.text = .ok f) := by
  refine ⟨⟨fun h => (parse_ok_iff_spelledBy.1 h).plainName,
    fun h => parse_ok_iff_spelledBy.2 (spelledBy_text h)⟩, ?_⟩
  intro h
  have hSpelled := parse_ok_iff_spelledBy.1 h
  exact ⟨hSpelled.text_eq, parse_ok_iff_spelledBy.2 (spelledBy_text hSpelled.plainName)⟩

/-- A text with white space, a literal with two dashes, and a clause without literals. -/
def paddedText : String := " \x7ba,\t- -b\x7d,\n\x7b \x7d"

def paddedSpelling : Spelling :=
  [[⟨0, ['a'], List.cons_ne_nil _ _, List.forall_mem_singleton.2 (by decide)⟩,
    ⟨2, ['b'], List.cons_ne_nil _ _, List.forall_mem_singleton.2 (by decide)⟩], []]

theorem parse_text_round_trip_padded :
    Formula.parse paddedText = .ok paddedSpelling.formula ∧
      paddedSpelling.formula.text = "\x7ba,-b\x7d,\x7b\x7d" ∧
      Formula.parse paddedSpelling.formula.text = .ok paddedSpelling.formula := by
  have hRead : Formula.parse paddedText = .ok paddedSpelling.formula :=
    parse_ok_iff_spelledBy.2 ⟨paddedSpelling, by decide, rfl⟩
  have hDashes : singleDashes (withoutBlanks paddedText.toList) =
      "\x7ba,-b\x7d,\x7b\x7d".toList := by decide
  obtain ⟨hText, hAgain⟩ := (parse_text_round_trip paddedSpelling.formula paddedText).2 hRead
  rw [hDashes, String.ofList_toList] at hText
  exact ⟨hRead, hText, hAgain⟩

end Formula

end SatLab
