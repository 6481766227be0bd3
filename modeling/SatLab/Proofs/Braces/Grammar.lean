import SatLab.Proofs.Fallible
import SatLab.Proofs.Text.Separated

/-! The grammar of brace notation. A spelling is a parse tree: it has the text it is written as and
the formula it stands for. The parser accepts exactly the texts of spellings. -/

namespace SatLab

/-- The characters that give a text its structure. No name holds one of them. -/
def structureChars : List Char := ['{', '}', ',', '-']

/-- A literal as it is written: any number of dashes in front of a name. -/
structure LiteralSpelling where
  dashes : Nat
  name : List Char
  name_ne_nil : name ≠ []
  name_plain : ∀ c ∈ name, c ∉ structureChars

namespace LiteralSpelling

def chars (d : LiteralSpelling) : List Char := List.replicate d.dashes '-' ++ d.name

def literal (d : LiteralSpelling) : Literal :=
  { name := String.ofList d.name
    negated := decide (0 < d.dashes)
    name_ne_empty := fun h => d.name_ne_nil (String.ofList_eq_empty_iff.1 h) }

end LiteralSpelling

abbrev ClauseSpelling := List LiteralSpelling

namespace ClauseSpelling

/-- The text between the braces. -/
def body (d : ClauseSpelling) : List Char := joined [','] (d.map LiteralSpelling.chars)

def chars (d : ClauseSpelling) : List Char := '{' :: (d.body ++ ['}'])

def clause (d : ClauseSpelling) : Clause := d.map LiteralSpelling.literal

end ClauseSpelling

/-- A formula as it is written: clauses in braces, with single commas between them. -/
abbrev Spelling := List ClauseSpelling

namespace Spelling

def chars (d : Spelling) : List Char := joined [','] (d.map ClauseSpelling.chars)

def formula (d : Spelling) : Formula := d.map ClauseSpelling.clause

end Spelling

namespace Literal

theorem dropWhile_dash {name : List Char} (h : '-' ∉ name) (dashes : Nat) :
    (List.replicate dashes '-' ++ name).dropWhile (· == '-') = name := by
  rw [List.dropWhile_append_of_pos]
  · cases name with
    | nil => rfl
    | cons c name =>
        rw [List.mem_cons, not_or] at h
        rw [List.dropWhile_cons_of_neg]
        rw [beq_iff_eq]
        exact Ne.symm h.1
  · intro c hMem
    rw [List.eq_of_mem_replicate hMem]
    rfl

/-- A literal is negated exactly when at least one dash stands before its name. -/
theorem head?_dash {name : List Char} (h : '-' ∉ name) (dashes : Nat) :
    ((List.replicate dashes '-' ++ name).head? == some '-') = decide (0 < dashes) := by
  cases dashes with
  | zero =>
      cases name with
      | nil => rfl
      | cons c name =>
          rw [List.mem_cons, not_or] at h
          exact beq_eq_false_iff_ne.2 fun hHead => h.1 (Option.some.inj hHead).symm
  | succ dashes => exact (decide_eq_true (Nat.succ_pos dashes)).symm

/-- Every spelling of a literal is read as that literal. -/
theorem parse_chars (d : LiteralSpelling) : Literal.parse d.chars = .ok d.literal := by
  have hDash : '-' ∉ d.name := fun h => d.name_plain '-' h (by decide)
  have hName : String.ofList d.name ≠ "" := fun h =>
    d.name_ne_nil (String.ofList_eq_empty_iff.1 h)
  rw [Literal.parse, LiteralSpelling.chars, dropWhile_dash hDash, head?_dash hDash]
  simp only [Bool.or_eq_true, List.isEmpty_iff, List.contains_iff_mem, d.name_ne_nil, hDash,
    or_self, if_false, ofName?, dif_pos hName]
  rfl

/-- A token without a dash inside is a name after some dashes. -/
theorem exists_dashes {token : List Char} (h : '-' ∉ token.dropWhile (· == '-')) :
    ∃ dashes name, token = List.replicate dashes '-' ++ name ∧ '-' ∉ name := by
  refine ⟨(token.takeWhile (· == '-')).length, token.dropWhile (· == '-'), ?_, h⟩
  have hDashes : ∀ c ∈ token.takeWhile (· == '-'), c = '-' := by
    intro c hMem
    exact beq_iff_eq.1 (List.all_eq_true.1 List.all_takeWhile c hMem)
  rw [← List.eq_replicate_of_mem hDashes, List.takeWhile_append_dropWhile]

/-- A literal that is read has the spelling it was read from. -/
theorem exists_spelling {token : List Char} {l : Literal}
    (hPlain : ∀ c ∈ token, c ∉ ['{', '}', ',']) (h : Literal.parse token = .ok l) :
    ∃ d : LiteralSpelling, d.chars = token ∧ d.literal = l := by
  by_cases hDash : '-' ∈ token.dropWhile (· == '-')
  · simp only [Literal.parse, Bool.or_eq_true, List.contains_iff_mem, hDash, or_true, if_true] at h
    cases h
  · obtain ⟨dashes, name, rfl, hName⟩ := exists_dashes hDash
    by_cases hNil : name = []
    · rw [hNil, Literal.parse, dropWhile_dash List.not_mem_nil] at h
      cases h
    · have hNamePlain : ∀ c ∈ name, c ∉ structureChars := by
        intro c hMem hStructure
        have hCases : c ∈ ['{', '}', ','] ++ ['-'] := hStructure
        rcases List.mem_append.1 hCases with hSeparator | hDashChar
        · exact hPlain c (List.mem_append_right _ hMem) hSeparator
        · rw [List.mem_singleton] at hDashChar
          exact hName (hDashChar ▸ hMem)
      refine ⟨⟨dashes, name, hNil, hNamePlain⟩, rfl, ?_⟩
      exact Except.ok.inj ((parse_chars _).symm.trans h)

end Literal

namespace Clause

/-- The text of a clause with this text between its braces. -/
def inBraces (body : List Char) : List Char := '{' :: (body ++ ['}'])

def BraceFree (body : List Char) : Prop := ∀ c ∈ body, c ≠ '{' ∧ c ≠ '}'

theorem braceFree_nil : BraceFree [] := fun _ h => nomatch h

theorem braceFree_cons {c : Char} {body : List Char} :
    BraceFree (c :: body) ↔ (c ≠ '{' ∧ c ≠ '}') ∧ BraceFree body := List.forall_mem_cons

/-- The text is made up of clauses with these texts between their braces. -/
def Braced (bodies : List (List Char)) (text : List Char) : Prop :=
  bodies ≠ [] ∧ joined [','] (bodies.map inBraces) = text ∧ ∀ b ∈ bodies, BraceFree b

/-- More clauses, each with a comma in front of it. -/
def moreClauses (bodies : List (List Char)) : List Char :=
  bodies.flatMap fun body => ',' :: inBraces body

/-- Clauses joined by commas: the first one in braces, and each further one after its comma. -/
theorem joined_inBraces (body : List Char) (bodies : List (List Char)) :
    joined [','] ((body :: bodies).map inBraces) = inBraces body ++ moreClauses bodies := by
  induction bodies generalizing body with
  | nil => simp [joined_singleton, moreClauses]
  | cons next bodies ih =>
      rw [List.map_cons, joined_cons (by simp), ih]
      simp [moreClauses]

/-- The bodies of a braced text, told apart into the first and the ones after a comma. -/
theorem braced_iff {bodies : List (List Char)} {text : List Char} :
    Braced bodies text ↔ ∃ body more, bodies = body :: more ∧
      inBraces body ++ moreClauses more = text ∧ BraceFree body ∧ ∀ b ∈ more, BraceFree b := by
  constructor
  · rintro ⟨hNil, hText, hFree⟩
    obtain ⟨body, more, rfl⟩ := List.exists_cons_of_ne_nil hNil
    rw [joined_inBraces] at hText
    rw [List.forall_mem_cons] at hFree
    exact ⟨body, more, rfl, hText, hFree⟩
  · rintro ⟨body, more, rfl, hText, hFree⟩
    exact ⟨List.cons_ne_nil _ _, (joined_inBraces body more).trans hText,
      List.forall_mem_cons.2 hFree⟩

/-! ### The check of the braces -/

/-- What the rest of a text has to be at a place, for the text to be made up of clauses. -/
def Place.Rest (text : List Char) : Place → Prop
  | before => ∃ bodies, Braced bodies text
  | inside => ∃ body bodies, body ++ '}' :: moreClauses bodies = text ∧ BraceFree body ∧
      ∀ b ∈ bodies, BraceFree b
  | after => ∃ bodies, moreClauses bodies = text ∧ ∀ b ∈ bodies, BraceFree b

/-- Before a clause only an opening brace can stand. -/
theorem rest_before_cons {c : Char} {text : List Char} :
    Place.before.Rest (c :: text) ↔ c = '{' ∧ Place.inside.Rest text := by
  constructor
  · rintro ⟨bodies, hBraced⟩
    obtain ⟨body, more, -, hText, hFree⟩ := braced_iff.1 hBraced
    obtain ⟨rfl, rfl⟩ := List.cons_eq_cons.1 hText
    exact ⟨rfl, body, more, by simp, hFree⟩
  · rintro ⟨rfl, body, more, rfl, hFree⟩
    exact ⟨_, braced_iff.2 ⟨body, more, rfl, by simp [inBraces], hFree⟩⟩

/-- Inside a clause anything but an opening brace can stand, and a closing brace ends it. -/
theorem rest_inside_cons {c : Char} {text : List Char} :
    Place.inside.Rest (c :: text) ↔
      c ≠ '{' ∧ (if c = '}' then Place.after else .inside).Rest text := by
  by_cases hClosing : c = '}'
  · rw [if_pos hClosing, hClosing]
    constructor
    · rintro ⟨body, bodies, hText, hBody, hFree⟩
      cases body with
      | nil => exact ⟨by decide, bodies, (List.cons_eq_cons.1 hText).2, hFree⟩
      | cons c body =>
          have hFirst := (braceFree_cons.1 hBody).1.2
          exact absurd (List.cons_eq_cons.1 hText).1 hFirst
    · rintro ⟨-, bodies, rfl, hFree⟩
      exact ⟨[], bodies, rfl, braceFree_nil, hFree⟩
  · rw [if_neg hClosing]
    constructor
    · rintro ⟨body, bodies, hText, hBody, hFree⟩
      cases body with
      | nil => exact absurd (List.cons_eq_cons.1 hText).1.symm hClosing
      | cons c' body =>
          obtain ⟨rfl, rfl⟩ := List.cons_eq_cons.1 hText
          rw [braceFree_cons] at hBody
          exact ⟨hBody.1.1, body, bodies, rfl, hBody.2, hFree⟩
    · rintro ⟨hOpening, body, bodies, rfl, hBody, hFree⟩
      exact ⟨c :: body, bodies, rfl, braceFree_cons.2 ⟨⟨hOpening, hClosing⟩, hBody⟩, hFree⟩

/-- After a clause only a comma can stand, and it announces one more. -/
theorem rest_after_cons {c : Char} {text : List Char} :
    Place.after.Rest (c :: text) ↔ c = ',' ∧ Place.before.Rest text := by
  constructor
  · rintro ⟨bodies, hText, hFree⟩
    cases bodies with
    | nil => cases hText
    | cons body bodies =>
        obtain ⟨rfl, rfl⟩ := List.cons_eq_cons.1 hText
        exact ⟨rfl, _, braced_iff.2 ⟨body, bodies, rfl, rfl, List.forall_mem_cons.1 hFree⟩⟩
  · rintro ⟨rfl, bodies, hBraced⟩
    obtain ⟨body, more, rfl, rfl, hFree⟩ := braced_iff.1 hBraced
    exact ⟨body :: more, rfl, List.forall_mem_cons.2 hFree⟩

/-- The check looks for exactly what has to follow. -/
theorem completes_iff {place : Place} {text : List Char} :
    completes place text = true ↔ place.Rest text := by
  induction text generalizing place with
  | nil =>
      rw [completes, decide_eq_true_eq]
      cases place with
      | before =>
          refine iff_of_false nofun ?_
          rintro ⟨bodies, hBraced⟩
          obtain ⟨body, more, -, hText, -⟩ := braced_iff.1 hBraced
          cases hText
      | inside =>
          refine iff_of_false nofun ?_
          rintro ⟨body, bodies, hText, -⟩
          exact List.append_ne_nil_of_right_ne_nil body (List.cons_ne_nil _ _) hText
      | after => exact iff_of_true rfl ⟨[], rfl, List.forall_mem_nil _⟩
  | cons c text ih =>
      cases place with
      | before => rw [completes, Bool.and_eq_true, decide_eq_true_eq, ih, rest_before_cons]
      | inside => rw [completes, Bool.and_eq_true, decide_eq_true_eq, ih, rest_inside_cons]
      | after => rw [completes, Bool.and_eq_true, decide_eq_true_eq, ih, rest_after_cons]

/-- The check accepts exactly the texts that are made up of clauses. -/
theorem isBraced_iff {text : List Char} :
    isBraced text = true ↔ ∃ bodies, Braced bodies text := completes_iff

/-! ### The texts between the braces -/

/-- After an opening brace all is read up to the closing one. -/
theorem bodiesFrom_closing {body : List Char} (h : BraceFree body) (read text : List Char) :
    bodiesFrom (some read) (body ++ '}' :: text) =
      (read.reverse ++ body) :: bodiesFrom none text := by
  induction body generalizing read with
  | nil => simp [bodiesFrom]
  | cons c body ih =>
      obtain ⟨⟨hOpening, hClosing⟩, hBody⟩ := braceFree_cons.1 h
      rw [List.cons_append, bodiesFrom, if_neg hOpening]
      simp only [if_neg hClosing]
      rw [ih hBody, List.reverse_cons, List.append_assoc, List.singleton_append]

/-- The search for bodies finds the first clause of a text and goes on after it. -/
theorem bodiesFrom_inBraces {body : List Char} (h : BraceFree body) (text : List Char) :
    bodiesFrom none (inBraces body ++ text) = body :: bodiesFrom none text := by
  rw [inBraces, List.cons_append, bodiesFrom, if_pos rfl, List.append_assoc, List.singleton_append,
    bodiesFrom_closing h, List.reverse_nil, List.nil_append]

/-- By induction on the clauses, the search finds each body once and in order. -/
theorem bodiesFrom_moreClauses {bodies : List (List Char)} (hFree : ∀ b ∈ bodies, BraceFree b) :
    bodiesFrom none (moreClauses bodies) = bodies := by
  induction bodies with
  | nil => rfl
  | cons body bodies ih =>
      rw [List.forall_mem_cons] at hFree
      rw [moreClauses, List.flatMap_cons, List.cons_append, bodiesFrom, if_neg (by decide),
        bodiesFrom_inBraces hFree.1, ← moreClauses, ih hFree.2]

/-- What is cut out of a text that passes the check are its clauses: the two passes agree. -/
theorem bodies_of_braced {text : List Char} {texts : List (List Char)} (h : Braced texts text) :
    bodies text = texts := by
  obtain ⟨body, more, rfl, rfl, hBody, hFree⟩ := braced_iff.1 h
  rw [bodies, bodiesFrom_inBraces hBody, bodiesFrom_moreClauses hFree]

end Clause

namespace LiteralSpelling

/-- A spelled literal is not empty. -/
theorem chars_ne_nil (d : LiteralSpelling) : d.chars ≠ [] := fun h =>
  d.name_ne_nil (List.append_eq_nil_iff.1 h).2

/-- Besides dashes a literal holds none of the characters that structure a formula. -/
theorem chars_plain (d : LiteralSpelling) : ∀ c ∈ d.chars, c ∉ ['{', '}', ','] := by
  intro c hMem hSeparator
  rcases List.mem_append.1 hMem with hDash | hName
  · rw [List.eq_of_mem_replicate hDash] at hSeparator
    exact absurd hSeparator (by decide)
  · exact d.name_plain c hName (List.mem_append_left ['-'] hSeparator)

end LiteralSpelling

namespace Clause

/-- A token is read as a literal exactly when a spelling of that literal is the token. -/
theorem parse_literal_iff {token : List Char} (hPlain : ∀ c ∈ token, c ∉ ['{', '}', ','])
    (l : Literal) :
    Literal.parse token = .ok l ↔ ∃ d : LiteralSpelling, d.chars = token ∧ d.literal = l := by
  constructor
  · exact Literal.exists_spelling hPlain
  · rintro ⟨d, rfl, rfl⟩
    exact Literal.parse_chars d

/-- Only the empty clause has an empty body. -/
theorem body_eq_nil_iff {d : ClauseSpelling} : d.body = [] ↔ d = [] := by
  rw [ClauseSpelling.body, joined_eq_nil_iff, List.map_eq_nil_iff]
  intro text hText
  obtain ⟨l, _, rfl⟩ := List.mem_map.1 hText
  exact l.chars_ne_nil

/-- Cutting the body of a clause at its commas gives back the spelled literals. -/
theorem cutAt_body {d : ClauseSpelling} (hNil : d ≠ []) :
    cutAt ',' d.body = d.map LiteralSpelling.chars := by
  apply cutAt_joined
  · exact fun h => hNil (List.map_eq_nil_iff.1 h)
  · intro piece hPiece hComma
    obtain ⟨l, _, rfl⟩ := List.mem_map.1 hPiece
    exact l.chars_plain ',' hComma (by decide)

/-- A body is read as a clause exactly when a spelling of that clause has the body. -/
theorem parse_body_iff {body : List Char} (hFree : BraceFree body) (c : Clause) :
    Clause.parse body = .ok c ↔ ∃ d : ClauseSpelling, d.body = body ∧ d.clause = c := by
  by_cases hNil : body = []
  · rw [hNil, Clause.parse]
    constructor
    · rintro ⟨⟩
      exact ⟨[], rfl, rfl⟩
    · rintro ⟨d, hBody, rfl⟩
      rw [body_eq_nil_iff.1 hBody]
      rfl
  · have hPlain : ∀ token ∈ cutAt ',' body, ∀ c ∈ token, c ∉ ['{', '}', ','] := by
      intro token hToken c hMem
      have hJoined : c ∈ joined [','] (cutAt ',' body) := mem_joined hToken hMem
      have hBody : c ∈ body := (joined_cutAt ',' body).1 ▸ hJoined
      have hComma : c ≠ ',' := by
        rintro rfl
        exact (joined_cutAt ',' body).2 token hToken hMem
      simp [hFree c hBody, hComma]
    have hOpen : ¬body.isEmpty = true := fun h => hNil (List.isEmpty_iff.1 h)
    rw [Clause.parse, if_neg hOpen,
      mapM_eq_ok_iff fun token hToken => parse_literal_iff (hPlain token hToken)]
    constructor
    · rintro ⟨d, hTokens, rfl⟩
      exact ⟨d, by rw [ClauseSpelling.body, hTokens, (joined_cutAt ',' body).1], rfl⟩
    · rintro ⟨d, rfl, rfl⟩
      exact ⟨d, (cutAt_body fun h => hNil (body_eq_nil_iff.2 h)).symm, rfl⟩

end Clause

namespace ClauseSpelling

/-- No brace stands inside a spelled clause. -/
theorem body_braceFree (d : ClauseSpelling) : Clause.BraceFree d.body := by
  apply forall_mem_joined
  · rintro c hComma
    rw [List.mem_singleton.1 hComma]
    decide
  · intro text hText c hMem
    obtain ⟨l, _, rfl⟩ := List.mem_map.1 hText
    have hPlain := l.chars_plain c hMem
    simp only [List.mem_cons, not_or] at hPlain
    exact ⟨hPlain.1, hPlain.2.1⟩

theorem chars_ne_nil (d : ClauseSpelling) : d.chars ≠ [] := List.cons_ne_nil _ _

end ClauseSpelling

namespace Spelling

/-- A spelled formula is its bodies in braces, with a comma between each two. -/
theorem chars_eq_joined (d : Spelling) :
    d.chars = joined [','] ((d.map ClauseSpelling.body).map Clause.inBraces) := by
  rw [chars, List.map_map]
  rfl

theorem bodies_braceFree (d : Spelling) :
    ∀ body ∈ d.map ClauseSpelling.body, Clause.BraceFree body := by
  intro body hBody
  obtain ⟨c, _, rfl⟩ := List.mem_map.1 hBody
  exact c.body_braceFree

/-- Only the empty formula is spelled by no character. -/
theorem chars_eq_nil_iff {d : Spelling} : d.chars = [] ↔ d = [] := by
  rw [chars, joined_eq_nil_iff, List.map_eq_nil_iff]
  intro text hText
  obtain ⟨c, _, rfl⟩ := List.mem_map.1 hText
  exact c.chars_ne_nil

/-- The text of a spelling is made up of the bodies of its clauses. -/
theorem braced (d : Spelling) (hNil : d ≠ []) :
    Clause.Braced (d.map ClauseSpelling.body) d.chars :=
  ⟨fun hMap => hNil (List.map_eq_nil_iff.1 hMap), d.chars_eq_joined.symm, d.bodies_braceFree⟩

/-- Every name in the formula is spelled by one of its literals. -/
theorem exists_of_occurs {d : Spelling} {name : String} (h : name ∈ d.formula.occurrences) :
    ∃ c ∈ d, ∃ l ∈ c, name = String.ofList l.name := by
  obtain ⟨k, hLiteral, rfl⟩ := List.mem_map.1 h
  obtain ⟨_, hClause, hMem⟩ := List.mem_flatten.1 hLiteral
  obtain ⟨c, hSpelled, rfl⟩ := List.mem_map.1 hClause
  obtain ⟨l, hLiteralSpelled, rfl⟩ := List.mem_map.1 hMem
  exact ⟨c, hSpelled, l, hLiteralSpelled, rfl⟩

/-- Every character of a name stands in the text. -/
theorem mem_chars_of_occurs (d : Spelling) {name : String} (h : name ∈ d.formula.occurrences)
    {c : Char} (hMem : c ∈ name.toList) : c ∈ d.chars := by
  obtain ⟨clause, hClause, l, hLiteral, rfl⟩ := exists_of_occurs h
  rw [String.toList_ofList] at hMem
  have hChars : c ∈ l.chars := List.mem_append_right _ hMem
  have hBody : c ∈ clause.body := mem_joined (List.mem_map_of_mem hLiteral) hChars
  have hBraces : c ∈ clause.chars := List.mem_cons_of_mem _ (List.mem_append_left _ hBody)
  exact mem_joined (List.mem_map_of_mem hClause) hBraces

end Spelling

namespace Formula

/-- The text spells the formula. White space in it does not matter. -/
def SpelledBy (f : Formula) (text : String) : Prop :=
  ∃ d : Spelling, d.chars = withoutBlanks text.toList ∧ d.formula = f

/-- A text that is made up of clauses is parsed clause by clause. -/
theorem parse_of_braced {text : String} {bodies : List (List Char)}
    (h : Clause.Braced bodies (withoutBlanks text.toList)) :
    Formula.parse text = bodies.mapM Clause.parse := by
  have hOpen : ¬(withoutBlanks text.toList).isEmpty = true := by
    obtain ⟨body, more, -, hText, -⟩ := Clause.braced_iff.1 h
    rw [← hText]
    exact Bool.false_ne_true
  simp only [Formula.parse, if_neg hOpen, if_pos (Clause.isBraced_iff.2 ⟨bodies, h⟩),
    Clause.bodies_of_braced h]

/-- All other texts are malformed, but for those that hold nothing. -/
theorem parse_of_not_braced {text : String} (hNil : withoutBlanks text.toList ≠ [])
    (h : ¬∃ bodies, Clause.Braced bodies (withoutBlanks text.toList)) :
    Formula.parse text = .error (.malformed (String.ofList (withoutBlanks text.toList))) := by
  have hOpen : ¬(withoutBlanks text.toList).isEmpty = true := fun hEmpty =>
    hNil (List.isEmpty_iff.1 hEmpty)
  simp only [Formula.parse, if_neg hOpen, if_neg (mt Clause.isBraced_iff.1 h)]

/-- Blanks alone are the formula without a clause. -/
theorem parse_of_nil {text : String} (hNil : withoutBlanks text.toList = []) :
    Formula.parse text = .ok [] := by
  rw [Formula.parse, hNil]
  rfl

/-- The parser accepts exactly the texts of spellings and gives the formulas they stand for. -/
theorem parse_ok_iff_spelledBy {text : String} {f : Formula} :
    Formula.parse text = .ok f ↔ f.SpelledBy text := by
  by_cases hNil : withoutBlanks text.toList = []
  · rw [parse_of_nil hNil, SpelledBy, hNil]
    constructor
    · rintro ⟨⟩
      exact ⟨[], rfl, rfl⟩
    · rintro ⟨d, hChars, rfl⟩
      rw [Spelling.chars_eq_nil_iff.1 hChars]
      rfl
  · by_cases hBraces : ∃ bodies, Clause.Braced bodies (withoutBlanks text.toList)
    · obtain ⟨bodies, hBraced⟩ := hBraces
      rw [parse_of_braced hBraced,
        mapM_eq_ok_iff fun body hBody => Clause.parse_body_iff (hBraced.2.2 body hBody)]
      refine exists_congr fun d => and_congr_left fun _ => ?_
      constructor
      · rintro rfl
        rw [Spelling.chars_eq_joined, hBraced.2.1]
      · intro hChars
        have hSpelled := Spelling.braced d fun hEmpty =>
          hNil (hChars ▸ Spelling.chars_eq_nil_iff.2 hEmpty)
        rw [hChars] at hSpelled
        exact (Clause.bodies_of_braced hSpelled).symm.trans (Clause.bodies_of_braced hBraced)
    · rw [parse_of_not_braced hNil hBraces]
      refine iff_of_false nofun ?_
      rintro ⟨d, hChars, -⟩
      exact hBraces ⟨_, hChars ▸ d.braced fun hEmpty =>
        hNil (hChars ▸ Spelling.chars_eq_nil_iff.2 hEmpty)⟩

/-- Names are read from the text, without its white space. -/
theorem SpelledBy.not_isBlank {f : Formula} {text : String} (h : f.SpelledBy text) {name : String}
    (hName : name ∈ f.occurrences) : ∀ c ∈ name.toList, isBlank c = false := by
  obtain ⟨d, hChars, rfl⟩ := h
  intro c hMem
  have hText := d.mem_chars_of_occurs hName hMem
  rw [hChars, withoutBlanks, List.mem_filter, Bool.not_eq_true'] at hText
  exact hText.2

end Formula

end SatLab
