import SatLab.Dimacs.Reader
import SatLab.Proofs.Text.Lines
import SatLab.Text.Blank

/-! The ways to lay out clauses of integers as a DIMACS text. Clauses and lines have nothing to do
with each other: a clause may go on over lines, blank lines and comments, and a line may hold
several clauses. -/

namespace SatLab

namespace Dimacs

/-- White space inside a line. -/
def IsGap (c : Char) : Prop := isBlank c = true ∧ Lines.Inside c

instance (c : Char) : Decidable (IsGap c) := inferInstanceAs (Decidable (_ ∧ _))

/-- An integer in decimal digits, with a minus sign if it is negative and zeros in front. -/
def spelled (zeros : Nat) (k : Int) : List Char :=
  (if k < 0 then ['-'] else []) ++ (List.replicate zeros '0' ++ Nat.toDigits 10 k.natAbs)

/-- A line that holds these integers, with white space between them. -/
inductive NumberLine : List Int → List Char → Prop where
  | blank {gap : List Char} (hGap : ∀ c ∈ gap, IsGap c) : NumberLine [] gap
  | number (gap : List Char) (zeros : Nat) {k : Int} {ks : List Int} {rest : List Char}
      (hGap : ∀ c ∈ gap, IsGap c)
      (hShort : zeros + (Nat.toDigits 10 k.natAbs).length ≤ integerDigitLimit)
      (hApart : ∀ c ∈ rest.head?, IsGap c) (hRest : NumberLine ks rest) :
      NumberLine (k :: ks) (gap ++ (spelled zeros k ++ rest))

/-- A line of a text and the integers it holds: none if the line is skipped. -/
inductive Line : List Int → List Char → Prop where
  | numbers {ks : List Int} {line : List Char} (h : NumberLine ks line) : Line ks line
  | skipped {first : Char} {rest : List Char} (hFirst : first ∈ ['c', 'p', '%'])
      (hRest : ∀ c ∈ rest, Lines.Inside c) : Line [] (first :: rest)

/-- A text and the integers on its lines. Every line but the last one is ended. -/
inductive Page : List Int → List Char → Prop where
  | last {ks : List Int} {line : List Char} (h : Line ks line) : Page ks line
  | line (ending : List Char) {ks more : List Int} {line rest : List Char} (h : Line ks line)
      (hEnding : ending ∈ Lines.endings) (hRest : Page more rest) :
      Page (ks ++ more) (line ++ (ending ++ rest))

/-- Clauses as one row of integers. A zero closes each clause but perhaps the last one, and more
zeros may stand between clauses and at both ends. -/
inductive Closed : List (List Int) → List Int → Prop where
  | nothing : Closed [] []
  | zero {clauses : List (List Int)} {ks : List Int} (h : Closed clauses ks) :
      Closed clauses (0 :: ks)
  | clause {c : List Int} {clauses : List (List Int)} {ks : List Int} (hNil : c ≠ [])
      (hZero : ∀ k ∈ c, k ≠ 0) (h : Closed clauses ks) : Closed (c :: clauses) (c ++ 0 :: ks)
  | lastClause {c : List Int} (hNil : c ≠ []) (hZero : ∀ k ∈ c, k ≠ 0) : Closed [c] c

/-- A text that writes clauses in order. -/
def LaidOut (clauses : List (List Int)) (text : List Char) : Prop :=
  ∃ ks, Closed clauses ks ∧ Page ks text

theorem inside_of_isDigit {c : Char} (h : c.isDigit = true) : Lines.Inside c := by
  constructor
  · rintro rfl
    exact absurd h (by decide)
  · rintro rfl
    exact absurd h (by decide)

/-- A spelled number, sign apart, is made of digits. -/
theorem isDigit_spelled {zeros n : Nat} {c : Char}
    (h : c ∈ List.replicate zeros '0' ++ Nat.toDigits 10 n) : c.isDigit = true := by
  rcases List.mem_append.1 h with hZero | hDigit
  · rw [List.eq_of_mem_replicate hZero]
    rfl
  · exact Nat.isDigit_of_mem_toDigits (by decide) (by decide) hDigit

theorem inside_spelled {zeros : Nat} {k : Int} : ∀ c ∈ spelled zeros k, Lines.Inside c := by
  intro c hMem
  rcases List.mem_append.1 hMem with hSign | hDigits
  · split at hSign
    · rw [List.mem_singleton.1 hSign]
      decide
    · cases hSign
  · exact inside_of_isDigit (isDigit_spelled hDigits)

/-- No line of numbers has a line end inside. -/
theorem NumberLine.inside {ks : List Int} {line : List Char} (h : NumberLine ks line) :
    ∀ c ∈ line, Lines.Inside c := by
  induction h with
  | blank hGap => exact fun c hMem => (hGap c hMem).2
  | number gap zeros hGap _ _ _ ih =>
      intro c hMem
      rcases List.mem_append.1 hMem with hInGap | hMore
      · exact (hGap c hInGap).2
      · rcases List.mem_append.1 hMore with hNumber | hRest
        · exact inside_spelled c hNumber
        · exact ih c hRest

/-- No line of a laid out text has a line end inside. -/
theorem Line.inside {ks : List Int} {line : List Char} (h : Line ks line) :
    ∀ c ∈ line, Lines.Inside c := by
  cases h with
  | numbers h => exact h.inside
  | skipped hFirst hRest =>
      rw [List.forall_mem_cons]
      refine ⟨?_, hRest⟩
      simp only [List.mem_cons, List.not_mem_nil, or_false] at hFirst
      rcases hFirst with rfl | rfl | rfl <;> decide

end Dimacs

end SatLab
