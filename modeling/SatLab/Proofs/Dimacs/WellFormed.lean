import SatLab.Proofs.Braces.RoundTrip
import SatLab.Proofs.Dimacs.Reading

/-! What is read from a DIMACS file, whatever its text is. The clauses are not empty, they repeat no
literal, and their names are the decimal numerals of positive integers. So brace notation has a text
for every formula that is read. Only numbers with too many digits keep a text from being read. -/

namespace SatLab

namespace Dimacs

/-- A clause over numbers: no literal is repeated, and the names are positive decimal numerals. -/
structure Numbered (c : Clause) : Prop where
  nodup : c.Nodup
  names : ∀ l ∈ c, ∃ k : Nat, 0 < k ∧ l.name = toString k

theorem Numbered.nil : Numbered [] := ⟨List.nodup_nil, List.forall_mem_nil _⟩

/-- A clause stays well formed with one more literal that is not in it. -/
theorem Numbered.concat {c : Clause} (h : Numbered c) {k : Int} (hZero : k ≠ 0)
    (hNew : literalOf k ∉ c) : Numbered (c ++ [literalOf k]) := by
  rw [← List.concat_eq_append]
  refine ⟨h.nodup.concat hNew, ?_⟩
  rw [List.concat_eq_append, List.forall_mem_append, List.forall_mem_singleton]
  exact ⟨h.names, k.natAbs, Int.natAbs_pos.2 hZero, rfl⟩

/-! ### The numbers of a line -/

/-- The digits of a number stand in the line side by side. Those of the open number stand in front
of the line. -/
theorem digits_of_mem_numeralsFrom {current : Option Numeral} {minus : Bool} {line : List Char}
    {n : Numeral} (hOpen : ∀ m ∈ current, ∀ c ∈ m.digits, isDecimalDigit c = true)
    (h : n ∈ numeralsFrom current minus line) :
    n.digits <:+: (current.elim [] fun m => m.digits.reverse) ++ line ∧
      ∀ c ∈ n.digits, isDecimalDigit c = true := by
  have hNone : ∀ m ∈ (none : Option Numeral), ∀ c ∈ m.digits, isDecimalDigit c = true := nofun
  fun_induction numeralsFrom current minus line with
  | case1 current =>
      cases current with
      | none => cases h
      | some m =>
          obtain rfl := List.mem_singleton.1 h
          rw [List.append_nil]
          exact ⟨List.infix_rfl, fun c hc => hOpen m rfl c (List.mem_reverse.1 hc)⟩
  | case2 minus c rest m hDigit ih =>
      have hMore : ∀ d ∈ c :: m.digits, isDecimalDigit d = true :=
        List.forall_mem_cons.2 ⟨hDigit, hOpen m rfl⟩
      simpa using ih (fun _ hm => Option.mem_some.1 hm ▸ hMore) h
  | case3 minus c rest m hOther ih =>
      rcases List.mem_cons.1 h with rfl | hRest
      · exact ⟨(List.prefix_append _ _).isInfix, fun d hd => hOpen m rfl d (List.mem_reverse.1 hd)⟩
      · obtain ⟨hInfix, hDigits⟩ := ih hNone hRest
        exact ⟨List.infix_append_of_infix_right (List.infix_cons hInfix), hDigits⟩
  | case4 minus c rest hDigit ih =>
      have hFirst : ∀ d ∈ [c], isDecimalDigit d = true := List.forall_mem_singleton.2 hDigit
      exact ih (fun _ hm => Option.mem_some.1 hm ▸ hFirst) h
  | case5 minus c rest hOther ih =>
      obtain ⟨hInfix, hDigits⟩ := ih hNone h
      exact ⟨List.infix_cons hInfix, hDigits⟩

/-- A text without numbers of too many digits, in whatever script and wherever they stand. -/
def ShortNumerals (text : List Char) : Prop :=
  ∀ digits, digits <:+: text → (∀ c ∈ digits, isDecimalDigit c = true) →
    digits.length ≤ integerDigitLimit

/-- Every numeral within the limit on digits has a value. -/
theorem ShortNumerals.value {line : List Char} (h : ShortNumerals line) {n : Numeral}
    (hn : n ∈ numerals line) : ∃ k, n.value = .ok k := by
  have hNone : ∀ m ∈ (none : Option Numeral), ∀ c ∈ m.digits, isDecimalDigit c = true := nofun
  obtain ⟨hInfix, hDigits⟩ := digits_of_mem_numeralsFrom hNone hn
  have hLength := Nat.not_lt.2 (h n.digits hInfix hDigits)
  exact ⟨_, if_neg hLength⟩

/-! ### What has been read -/

namespace Progress

/-- The closed clauses are complete, and the open one may still be empty. -/
structure Sound (p : Progress) : Prop where
  closed : ∀ c ∈ p.closed, c ≠ [] ∧ Numbered c
  opened : Numbered p.opened

variable {p : Progress}

theorem sound_empty : empty.Sound := ⟨List.forall_mem_nil _, .nil⟩

namespace Sound

variable (h : p.Sound)

include h

/-- The clauses, the open one with them unless it is empty. -/
theorem all : ∀ c ∈ if p.opened.isEmpty then p.closed else p.opened :: p.closed,
    c ≠ [] ∧ Numbered c := by
  split
  · exact h.closed
  · next hOpen =>
      exact List.forall_mem_cons.2 ⟨⟨fun hNil => hOpen (hNil ▸ rfl), h.opened⟩, h.closed⟩

/-- One more number keeps the progress sound: it ends a clause, repeats a literal or adds one. -/
theorem addNumber (k : Int) : (p.addNumber k).Sound := by
  unfold Progress.addNumber
  split
  · exact ⟨h.all, .nil⟩
  · next hZero =>
      split
      · exact h
      · next hNew => exact ⟨h.closed, h.opened.concat hZero (by simpa using hNew)⟩

/-- A line within the limit on digits is read, and keeps the progress sound. -/
theorem addLine {line : List Char} (hShort : ShortNumerals line) :
    ∃ q, p.addLine line = .ok q ∧ q.Sound := by
  unfold Progress.addLine
  split
  · exact ⟨p, rfl, h⟩
  · refine foldlM_eq_ok (fun n hn q hq => ?_) h
    obtain ⟨k, hValue⟩ := hShort.value hn
    exact ⟨q.addNumber k, by rw [hValue]; rfl, hq.addNumber k⟩

/-- The clauses of sound progress are not empty and well formed. -/
theorem formula : ∀ c ∈ p.formula, c ≠ [] ∧ Numbered c :=
  fun c hc => h.all c (List.mem_reverse.1 hc)

end Sound

end Progress

/-- Every text is read but for numbers that are too long, as clauses over numbers. -/
theorem parse_numbered {text : List Char} (h : ShortNumerals text) :
    ∃ f, parse text = .ok f ∧ ∀ c ∈ f, c ≠ [] ∧ Numbered c := by
  have hSteps : ∀ line ∈ (Lines.ofChars text).all, ∀ q : Progress, q.Sound →
      ∃ next, q.addLine line = .ok next ∧ next.Sound := fun line hLine q hq =>
    hq.addLine fun digits hInfix => h digits (hInfix.trans (Lines.infix_of_mem_ofChars hLine))
  obtain ⟨p, hRead, hSound⟩ := foldlM_eq_ok hSteps Progress.sound_empty
  exact ⟨p.formula, by rw [parse, hRead]; rfl, hSound.formula⟩

theorem ofFile_of_parse {files : FileTree} {path text : String} {f : Formula}
    (h : parse text.toList = .ok f) (hFile : files.read path = .ok (Utf8.encode text)) :
    ofFile files path = .ok f := by
  rw [ofFile, hFile]
  simp only [Except.mapError, bind, Except.bind, ofBytes, Utf8.decodeBlocks_encode, h]

/-! ### From one notation to the other -/

/-- A number in decimal is a plain name. -/
theorem plainName_toString (k : Nat) : PlainName (toString k) := by
  intro c hc
  rw [Nat.toString_eq_ofList_toDigits, String.toList_ofList] at hc
  have hDigit : c.isDigit = true := Nat.isDigit_of_mem_toDigits (by decide) (by decide) hc
  have hRange : 48 ≤ c.toNat ∧ c.toNat ≤ 57 := by
    simpa [Char.isDigit, UInt32.le_iff_toNat_le] using hDigit
  have hBlanks : ∀ code ∈ blankCodes, ¬(48 ≤ code ∧ code ≤ 57) := by decide
  have hStructure : ∀ d ∈ structureChars, ¬(48 ≤ d.toNat ∧ d.toNat ≤ 57) := by
    simp [structureChars]
  constructor
  · rw [isBlank, List.contains_eq_mem, decide_eq_false_iff_not]
    exact fun hMem => hBlanks _ hMem hRange
  · exact fun hMem => hStructure c hMem hRange

/-- Clauses over numbers can be written in brace notation. -/
theorem parse_text_of_numbered {f : Formula} (h : ∀ c ∈ f, Numbered c) :
    Formula.parse f.text = .ok f := by
  refine Formula.parse_ok_iff_spelledBy.2 (Formula.spelledBy_text fun name hName => ?_)
  obtain ⟨l, hLiteral, rfl⟩ := List.mem_map.1 hName
  obtain ⟨c, hClause, hMem⟩ := List.mem_flatten.1 hLiteral
  obtain ⟨k, -, hNumeral⟩ := (h c hClause).names l hMem
  rw [hNumeral]
  exact plainName_toString k

/-- Whatever the text of a file is, it is read as a formula, unless it holds a number with too many
digits: no clause is empty, none repeats a literal, and every name is the decimal numeral of a
positive integer. In brace notation the formula is written and read back as it is. -/
theorem ofFile_numbered {files : FileTree} {path text : String} (hShort : ShortNumerals text.toList)
    (hFile : files.read path = .ok (Utf8.encode text)) :
    ∃ f, ofFile files path = .ok f ∧
      (∀ c ∈ f, c ≠ [] ∧ c.Nodup ∧ ∀ l ∈ c, ∃ k : Nat, 0 < k ∧ l.name = toString k) ∧
      Formula.parse f.text = .ok f := by
  obtain ⟨f, hParse, hClauses⟩ := parse_numbered hShort
  have hRead := ofFile_of_parse hParse hFile
  refine ⟨f, hRead, fun c hc => ?_, parse_text_of_numbered fun c hc => (hClauses c hc).2⟩
  obtain ⟨hNil, hNumbered⟩ := hClauses c hc
  exact ⟨hNil, hNumbered.nodup, hNumbered.names⟩

/-- Digits of another script, a negative zero, zeros in front, and signs without space. -/
def garbledText : String := "٣ -0\n007-5--5x٣"

theorem ofFile_numbered_garbled :
    let files := oneFile (Utf8.encode garbledText)
    let f : Formula := [[3], [7, -5, 3]].map (·.map literalOf)
    ShortNumerals garbledText.toList ∧ files.read "a.cnf" = .ok (Utf8.encode garbledText) ∧
      ofFile files "a.cnf" = .ok f ∧ Formula.parse f.text = .ok f := by
  intro files f
  have hShort : ShortNumerals garbledText.toList := fun digits hInfix _ =>
    hInfix.length_le.trans (by decide)
  have hFile : files.read "a.cnf" = .ok (Utf8.encode garbledText) := read_oneFile _
  have hParse : parse garbledText.toList = .ok f := rfl
  have hRead := ofFile_of_parse hParse hFile
  obtain ⟨f', hRead', -, hAgain⟩ := ofFile_numbered hShort hFile
  obtain rfl : f = f' := by simpa [hRead] using hRead'
  exact ⟨hShort, hFile, hRead, hAgain⟩

end Dimacs

end SatLab
