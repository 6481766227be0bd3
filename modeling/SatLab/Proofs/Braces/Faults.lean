import SatLab.Proofs.Braces.Grammar

/-! What the parser of brace notation reports for a text that spells no formula. The braces are
looked at first; the first token that is no literal counts after that. -/

namespace SatLab

namespace Literal

/-- No name reaches a literal unless it was checked before. -/
theorem fault_of_parse {token : List Char} {fault : SyntaxFault}
    (h : Literal.parse token = .error fault) : fault = .invalidLiteral (String.ofList token) := by
  rw [Literal.parse] at h
  by_cases hName : token.dropWhile (· == '-') = []
  · simp only [hName, List.isEmpty_nil, Bool.true_or, if_true] at h
    exact (Except.error.inj h).symm
  · have hText : String.ofList (token.dropWhile (· == '-')) ≠ "" := fun hEmpty =>
      hName (String.ofList_eq_empty_iff.1 hEmpty)
    simp only [ofName?, dif_pos hText] at h
    split at h
    · exact (Except.error.inj h).symm
    · cases h

/-- A token is refused exactly when no literal is spelled so, and the fault quotes the token. -/
theorem parse_eq_error_iff {token : List Char} (hPlain : ∀ c ∈ token, c ∉ ['{', '}', ','])
    {fault : SyntaxFault} : Literal.parse token = .error fault ↔
      (¬∃ d : LiteralSpelling, d.chars = token) ∧
        fault = .invalidLiteral (String.ofList token) := by
  constructor
  · intro h
    refine ⟨?_, fault_of_parse h⟩
    rintro ⟨d, rfl⟩
    rw [parse_chars] at h
    cases h
  · rintro ⟨hNone, rfl⟩
    cases hParse : Literal.parse token with
    | ok l =>
        obtain ⟨d, hChars, -⟩ := exists_spelling hPlain hParse
        exact (hNone ⟨d, hChars⟩).elim
    | error fault => rw [fault_of_parse hParse]

end Literal

namespace Clause

/-- The tokens between the braces of a clause. -/
def tokens (body : List Char) : List (List Char) := if body.isEmpty then [] else cutAt ',' body

/-- A clause is read token by token, from left to right. -/
theorem parse_eq_mapM_tokens (body : List Char) :
    Clause.parse body = (tokens body).mapM Literal.parse := by
  rw [Clause.parse, tokens]
  split
  · rfl
  · rfl

/-- The tokens of a body without braces hold neither brace nor comma. -/
theorem tokens_plain {body : List Char} (hFree : BraceFree body) {token : List Char}
    (hToken : token ∈ tokens body) : ∀ c ∈ token, c ∉ ['{', '}', ','] := by
  rw [tokens] at hToken
  split at hToken
  · cases hToken
  · intro c hMem
    obtain ⟨hJoined, hComma⟩ := joined_cutAt ',' body
    have hBody : c ∈ body := hJoined ▸ mem_joined hToken hMem
    have hNotComma : c ≠ ',' := fun h => hComma token hToken (h ▸ hMem)
    simp [hFree c hBody, hNotComma]

end Clause

/-- What a fault says about a text without white space. A token is blamed only if the braces are
right and all tokens before it are literals. -/
def SyntaxFault.FoundIn (text : List Char) : SyntaxFault → Prop
  | malformed shown =>
    shown = String.ofList text ∧ text ≠ [] ∧ ¬∃ bodies, Clause.Braced bodies text
  | invalidLiteral shown => ∃ bodies before token after,
    shown = String.ofList token ∧ Clause.Braced bodies text ∧
      bodies.flatMap Clause.tokens = before ++ token :: after ∧
      (∀ other ∈ before, ∃ d : LiteralSpelling, d.chars = other) ∧
      ¬∃ d : LiteralSpelling, d.chars = token
  | emptyName => False

namespace Formula

/-- The first fault among the clauses is the first fault among all their tokens. -/
theorem mapM_clauses_eq_error_iff {bodies : List (List Char)} {fault : SyntaxFault} :
    bodies.mapM Clause.parse = .error fault ↔
      (bodies.flatMap Clause.tokens).mapM Literal.parse = .error fault := by
  induction bodies with
  | nil => exact iff_of_false (fun h => nomatch h) (fun h => nomatch h)
  | cons body bodies ih =>
      rw [List.mapM_cons, List.flatMap_cons, List.mapM_append, bind_eq_error_iff,
        bind_eq_error_iff, Clause.parse_eq_mapM_tokens]
      simp only [bind_eq_error_iff, ih, pure, Except.pure, reduceCtorEq, and_false, exists_false,
        or_false]

/-- Once the braces are right, the fault is the first token that is no literal. -/
theorem mapM_clauses_fault {bodies : List (List Char)}
    (hFree : ∀ b ∈ bodies, Clause.BraceFree b) {fault : SyntaxFault} :
    bodies.mapM Clause.parse = .error fault ↔ ∃ before token after,
      fault = .invalidLiteral (String.ofList token) ∧
        bodies.flatMap Clause.tokens = before ++ token :: after ∧
        (∀ other ∈ before, ∃ d : LiteralSpelling, d.chars = other) ∧
        ¬∃ d : LiteralSpelling, d.chars = token := by
  have hPlain : ∀ token ∈ bodies.flatMap Clause.tokens, ∀ c ∈ token, c ∉ ['{', '}', ','] := by
    intro token hToken
    obtain ⟨body, hBody, hMem⟩ := List.mem_flatMap.1 hToken
    exact Clause.tokens_plain (hFree body hBody) hMem
  rw [mapM_clauses_eq_error_iff, mapM_eq_error_iff]
  refine exists_congr fun before => exists_congr fun token => exists_congr fun after => ?_
  constructor
  · rintro ⟨hSplit, hBefore, hToken⟩
    rw [hSplit] at hPlain
    obtain ⟨hNone, hFault⟩ := (Literal.parse_eq_error_iff (hPlain token (by simp))).1 hToken
    refine ⟨hFault, hSplit, ?_, hNone⟩
    intro other hOther
    obtain ⟨l, hLiteral⟩ := hBefore other hOther
    obtain ⟨d, hChars, -⟩ := Literal.exists_spelling (hPlain other (by simp [hOther])) hLiteral
    exact ⟨d, hChars⟩
  · rintro ⟨hFault, hSplit, hBefore, hNone⟩
    rw [hSplit] at hPlain
    refine ⟨hSplit, ?_, (Literal.parse_eq_error_iff (hPlain token (by simp))).2 ⟨hNone, hFault⟩⟩
    intro other hOther
    obtain ⟨d, rfl⟩ := hBefore other hOther
    exact ⟨d.literal, Literal.parse_chars d⟩

/-- The parser reports a fault exactly where it is. -/
theorem parse_error_iff_foundIn {text : String} {fault : SyntaxFault} :
    Formula.parse text = .error fault ↔ fault.FoundIn (withoutBlanks text.toList) := by
  by_cases hBraces : ∃ bodies, Clause.Braced bodies (withoutBlanks text.toList)
  · obtain ⟨bodies, hBraced⟩ := hBraces
    rw [parse_of_braced hBraced, mapM_clauses_fault hBraced.2.2]
    cases fault with
    | malformed shown =>
        refine iff_of_false (by rintro ⟨_, _, _, ⟨⟩, _⟩) ?_
        exact fun h => h.2.2 ⟨bodies, hBraced⟩
    | invalidLiteral shown =>
        constructor
        · rintro ⟨before, token, after, ⟨⟩, hSplit⟩
          exact ⟨bodies, before, token, after, rfl, hBraced, hSplit⟩
        · rintro ⟨others, before, token, after, rfl, hOthers, hSplit⟩
          rw [← Clause.bodies_of_braced hOthers, Clause.bodies_of_braced hBraced] at hSplit
          exact ⟨before, token, after, rfl, hSplit⟩
    | emptyName => exact iff_of_false (by rintro ⟨_, _, _, ⟨⟩, _⟩) id
  · by_cases hNil : withoutBlanks text.toList = []
    · rw [parse_of_nil hNil]
      refine iff_of_false nofun ?_
      cases fault with
      | malformed shown => exact fun h => h.2.1 hNil
      | invalidLiteral shown =>
          rintro ⟨bodies, -, -, -, -, hBraced, -⟩
          exact hBraces ⟨bodies, hBraced⟩
      | emptyName => exact id
    · rw [parse_of_not_braced hNil hBraces]
      cases fault with
      | malformed shown => simp [SyntaxFault.FoundIn, hNil, hBraces, eq_comm]
      | invalidLiteral shown =>
          refine iff_of_false nofun ?_
          rintro ⟨bodies, -, -, -, -, hBraced, -⟩
          exact hBraces ⟨bodies, hBraced⟩
      | emptyName => exact iff_of_false nofun id

/-- Every text either spells a formula, which the parser gives, or has a fault, which the parser
reports. A literal is never made of the empty name. -/
theorem parse_accepts_spellings (text : String) :
    (∀ f, Formula.parse text = .ok f ↔ f.SpelledBy text) ∧
      (∀ fault, Formula.parse text = .error fault ↔
        fault.FoundIn (withoutBlanks text.toList)) ∧
      Formula.parse text ≠ .error .emptyName :=
  ⟨fun _ => parse_ok_iff_spelledBy, fun _ => parse_error_iff_foundIn,
    fun h => parse_error_iff_foundIn.1 h⟩

end Formula

end SatLab
