import SatLab.Text.Lines

/-! Where the scan cuts a text into lines. -/

namespace SatLab

namespace Lines

/-- A character that ends no line. -/
def Inside (c : Char) : Prop := c ≠ '\n' ∧ c ≠ '\r'

instance (c : Char) : Decidable (Inside c) := inferInstanceAs (Decidable (_ ∧ _))

/-- What ends a line. -/
def endings : List (List Char) := [['\n'], ['\r'], ['\r', '\n']]

/-- Characters that end no line are added to the line that is read. -/
theorem ofCharsFrom_inside {line : List Char} (h : ∀ c ∈ line, Inside c)
    (done : List (List Char)) (read : List Char) (afterReturn : Bool) (rest : List Char) :
    ofCharsFrom done read afterReturn (line ++ rest) =
      ofCharsFrom done (line.reverse ++ read) (afterReturn && line.isEmpty) rest := by
  induction line generalizing read afterReturn with
  | nil => simp
  | cons c line ih =>
      rw [List.forall_mem_cons] at h
      rw [List.cons_append, ofCharsFrom, if_neg h.1.1, if_neg h.1.2, ih h.2]
      simp

/-- The line that is not ended. -/
theorem ofCharsFrom_last {line : List Char} (h : ∀ c ∈ line, Inside c) (done : List (List Char))
    (afterReturn : Bool) :
    (ofCharsFrom done [] afterReturn line).all = done.reverse ++ [line] := by
  have hLine := ofCharsFrom_inside h done [] afterReturn []
  rw [List.append_nil, List.append_nil] at hLine
  rw [hLine]
  simp [ofCharsFrom, all]

/-- A line with its end. An empty line is lost if its line feed follows a carriage return. -/
theorem ofCharsFrom_line {line ending : List Char} (h : ∀ c ∈ line, Inside c)
    (hEnding : ending ∈ endings) (done : List (List Char)) (afterReturn : Bool)
    (rest : List Char) :
    (line = [] ∧ ofCharsFrom done [] afterReturn (line ++ (ending ++ rest)) =
        ofCharsFrom done [] false rest) ∨
      ∃ b, ofCharsFrom done [] afterReturn (line ++ (ending ++ rest)) =
        ofCharsFrom (line :: done) [] b rest := by
  rw [ofCharsFrom_inside h, List.append_nil]
  simp only [endings, List.mem_cons, List.not_mem_nil, or_false] at hEnding
  rcases hEnding with rfl | rfl | rfl
  · cases hFlag : afterReturn && line.isEmpty with
    | true =>
        rw [Bool.and_eq_true, List.isEmpty_iff] at hFlag
        exact .inl ⟨hFlag.2, by simp [hFlag.2, ofCharsFrom]⟩
    | false => exact .inr ⟨false, by simp [ofCharsFrom]⟩
  · right
    exact ⟨true, by simp [ofCharsFrom]⟩
  · right
    exact ⟨false, by simp [ofCharsFrom]⟩

theorem infix_of_ended {done : List (List Char)} {read rest line : List Char} (c : Char)
    (h : line ∈ read.reverse :: done ∨ line <:+: rest) :
    line ∈ done ∨ line <:+: read.reverse ++ c :: rest := by
  rcases h with hDone | hRest
  · refine (List.mem_cons.1 hDone).symm.imp_right fun hRead => ?_
    rw [hRead]
    exact (List.prefix_append _ _).isInfix
  · exact .inr (List.infix_append_of_infix_right (List.infix_cons hRest))

/-- Every line stands in the text as it is. -/
theorem infix_of_mem_ofCharsFrom {done : List (List Char)} {read : List Char} {afterReturn : Bool}
    {text line : List Char} (hEnded : afterReturn = true → read = [])
    (h : line ∈ (ofCharsFrom done read afterReturn text).all) :
    line ∈ done ∨ line <:+: read.reverse ++ text := by
  fun_induction ofCharsFrom done read afterReturn text with
  | case1 done read afterReturn =>
      rw [all, List.mem_append, List.mem_reverse, List.mem_singleton] at h
      exact h.imp_right fun hLast => ⟨[], [], by simp [hLast]⟩
  | case2 done read rest ih =>
      obtain rfl := hEnded rfl
      exact (ih nofun h).imp_right fun hRest => List.infix_cons hRest
  | case3 done read afterReturn rest _ ih => exact infix_of_ended '\n' (ih nofun h)
  | case4 done read afterReturn rest _ ih => exact infix_of_ended '\r' (ih (fun _ => rfl) h)
  | case5 done read afterReturn c rest _ _ ih => simpa using ih nofun h

/-- Every line is a part of the text. -/
theorem infix_of_mem_ofChars {text line : List Char} (h : line ∈ (ofChars text).all) :
    line <:+: text :=
  (infix_of_mem_ofCharsFrom (fun _ => rfl) h).resolve_left List.not_mem_nil

end Lines

end SatLab
