import SatLab.Braces.Parser
import SatLab.Braces.Printer

/-! Cutting at a separator undoes joining with it, as long as no piece holds the separator. -/

namespace SatLab

theorem joined_singleton (separator text : List Char) : joined separator [text] = text :=
  List.append_nil text

theorem joined_cons {separator text : List Char} {texts : List (List Char)} (h : texts ≠ []) :
    joined separator (text :: texts) = text ++ (separator ++ joined separator texts) := by
  cases texts with
  | nil => exact (h rfl).elim
  | cons next texts => rfl

theorem joined_cons_cons (separator : List Char) (c : Char) (text : List Char)
    (texts : List (List Char)) :
    joined separator ((c :: text) :: texts) = c :: joined separator (text :: texts) := by
  cases texts <;> rfl

theorem mem_joined {separator text : List Char} {texts : List (List Char)} {c : Char}
    (hText : text ∈ texts) (hMem : c ∈ text) : c ∈ joined separator texts := by
  induction texts with
  | nil => cases hText
  | cons first texts ih =>
      by_cases hLast : texts = []
      · rw [hLast, List.mem_singleton] at hText
        rw [hLast, joined_singleton, ← hText]
        exact hMem
      · rw [joined_cons hLast, List.mem_append, List.mem_append]
        rcases List.mem_cons.1 hText with hFirst | hRest
        · exact .inl (hFirst ▸ hMem)
        · exact .inr (.inr (ih hRest))

/-- What holds of all characters of the pieces and the separator holds of those of the whole. -/
theorem forall_mem_joined {separator : List Char} {texts : List (List Char)} {p : Char → Prop}
    (hSeparator : ∀ c ∈ separator, p c) (hTexts : ∀ text ∈ texts, ∀ c ∈ text, p c) :
    ∀ c ∈ joined separator texts, p c := by
  induction texts with
  | nil => exact fun c hMem => nomatch hMem
  | cons text texts ih =>
      rw [List.forall_mem_cons] at hTexts
      by_cases hLast : texts = []
      · rw [hLast, joined_singleton]
        exact hTexts.1
      · rw [joined_cons hLast]
        intro c hMem
        rcases List.mem_append.1 hMem with hText | hRest
        · exact hTexts.1 c hText
        · rcases List.mem_append.1 hRest with hMid | hTail
          · exact hSeparator c hMid
          · exact ih hTexts.2 c hTail

/-- Pieces that are not empty are joined to nothing only if there are none. -/
theorem joined_eq_nil_iff {separator : List Char} {texts : List (List Char)}
    (h : ∀ text ∈ texts, text ≠ []) : joined separator texts = [] ↔ texts = [] := by
  constructor
  · intro hJoined
    cases texts with
    | nil => rfl
    | cons text texts =>
        obtain ⟨c, hMem⟩ := List.exists_mem_of_ne_nil text (h text List.mem_cons_self)
        have hIn : c ∈ joined separator (text :: texts) := mem_joined List.mem_cons_self hMem
        rw [hJoined] at hIn
        cases hIn
  · rintro rfl
    rfl

variable {separator : Char}

/-- A text without the separator is not cut. -/
theorem cutAt_of_not_mem {text : List Char} (h : separator ∉ text) :
    cutAt separator text = [text] := by
  induction text with
  | nil => rfl
  | cons c text ih =>
      rw [List.mem_cons, not_or] at h
      rw [cutAt, if_neg (Ne.symm h.1), ih h.2]

/-- The first separator ends the first piece. -/
theorem cutAt_append_separator {text : List Char} (h : separator ∉ text) (rest : List Char) :
    cutAt separator (text ++ separator :: rest) = text :: cutAt separator rest := by
  induction text with
  | nil => rw [List.nil_append, cutAt, if_pos rfl]
  | cons c text ih =>
      rw [List.mem_cons, not_or] at h
      rw [List.cons_append, cutAt, if_neg (Ne.symm h.1), ih h.2]

/-- Cutting takes apart what was joined, if no piece has the separator. -/
theorem cutAt_joined {pieces : List (List Char)} (hNil : pieces ≠ [])
    (h : ∀ piece ∈ pieces, separator ∉ piece) :
    cutAt separator (joined [separator] pieces) = pieces := by
  induction pieces with
  | nil => exact (hNil rfl).elim
  | cons piece pieces ih =>
      rw [List.forall_mem_cons] at h
      by_cases hLast : pieces = []
      · rw [hLast, joined_singleton, cutAt_of_not_mem h.1]
      · rw [joined_cons hLast, List.singleton_append, cutAt_append_separator h.1, ih hLast h.2]

theorem cutAt_ne_nil (separator : Char) (text : List Char) : cutAt separator text ≠ [] := by
  cases text with
  | nil => exact List.cons_ne_nil _ _
  | cons c text =>
      rw [cutAt]
      split
      · exact List.cons_ne_nil _ _
      · split <;> exact List.cons_ne_nil _ _

/-- No character is lost, and no piece holds the separator. -/
theorem joined_cutAt (separator : Char) (text : List Char) :
    joined [separator] (cutAt separator text) = text ∧
      ∀ piece ∈ cutAt separator text, separator ∉ piece := by
  induction text with
  | nil => exact ⟨rfl, List.forall_mem_singleton.2 List.not_mem_nil⟩
  | cons c text ih =>
      rw [cutAt]
      by_cases hSeparator : c = separator
      · rw [if_pos hSeparator, joined_cons (cutAt_ne_nil separator text), ih.1, hSeparator]
        exact ⟨rfl, List.forall_mem_cons.2 ⟨List.not_mem_nil, ih.2⟩⟩
      · rw [if_neg hSeparator]
        cases hCut : cutAt separator text with
        | nil => exact (cutAt_ne_nil separator text hCut).elim
        | cons piece pieces =>
            rw [hCut, List.forall_mem_cons] at ih
            obtain ⟨hJoined, hPiece, hPieces⟩ := ih
            refine ⟨by rw [joined_cons_cons, hJoined], List.forall_mem_cons.2 ⟨?_, hPieces⟩⟩
            rw [List.mem_cons, not_or]
            exact ⟨Ne.symm hSeparator, hPiece⟩

end SatLab
