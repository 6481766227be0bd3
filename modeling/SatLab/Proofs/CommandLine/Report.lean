import SatLab.CommandLine.Run
import SatLab.Proofs.Braces.Grammar
import SatLab.Proofs.Search.Verdict

/-! What a run writes, line by line. No part of a report holds a line feed of its own: names come
from a text whose white space was dropped, and numbers are digits. -/

namespace SatLab

def OneLine (text : String) : Prop := '\n' ∉ text.toList

instance (text : String) : Decidable (OneLine text) :=
  inferInstanceAs (Decidable ('\n' ∉ text.toList))

theorem oneLine_append {s t : String} : OneLine (s ++ t) ↔ OneLine s ∧ OneLine t := by
  rw [OneLine, String.toList_append, List.mem_append, not_or]
  rfl

theorem oneLine_nat (n : Nat) : OneLine (toString n) := by
  intro hMem
  rw [Nat.toString_eq_repr, Nat.toList_repr] at hMem
  exact absurd (Nat.isDigit_of_mem_toDigits (by decide) (by decide) hMem) (by decide)

theorem mem_of_mem_trimBlanksRight {text : List Char} {c : Char} (h : c ∈ trimBlanksRight text) :
    c ∈ text := by
  rw [trimBlanksRight, List.mem_reverse] at h
  exact List.mem_reverse.1 ((List.dropWhile_sublist _).mem h)

/-- An assignment of one-line names is written on one line. -/
theorem Assignment.oneLine_chars {a : Assignment} (h : ∀ name ∈ a, OneLine name) :
    '\n' ∉ Assignment.chars a := by
  have hEntries : ∀ c ∈ Assignment.chars a, c ≠ '\n' := by
    apply forall_mem_joined
    · exact List.forall_mem_singleton.2 (by decide)
    · intro text hText c hMem
      obtain ⟨⟨name, value⟩, hEntry, rfl⟩ := List.mem_map.1 hText
      rcases List.mem_append.1 hMem with hName | hValue
      · rintro rfl
        have hGet := Std.ExtTreeMap.mem_toList_iff_getElem?_eq_some.1 hEntry
        exact h name (Assignment.mem_iff_exists_value.2 ⟨value, hGet⟩) hName
      · rintro rfl
        cases value with
        | true => exact absurd hValue (show '\n' ∉ ['=', '1'] by decide)
        | false => exact absurd hValue (show '\n' ∉ ['=', '0'] by decide)
  exact fun hMem => hEntries '\n' hMem rfl

/-- A result of one-line names is printed on one line. -/
theorem oneLine_resultText {answer : Option Assignment}
    (h : ∀ model, answer = some model → ∀ name ∈ model, OneLine name) :
    OneLine (resultText answer) := by
  cases answer with
  | none => exact by decide
  | some model =>
      rw [OneLine, resultText, String.toList_ofList]
      intro hMem
      rcases List.mem_append.1 (mem_of_mem_trimBlanksRight hMem) with hHead | hEntries
      · exact absurd hHead (by decide)
      · exact Assignment.oneLine_chars (h model rfl) hEntries

namespace CommandLine

/-- The lines of the output, each of which ends with a line feed. -/
def Outcome.lines (outcome : Outcome) : List String :=
  (cutAt '\n' outcome.output.toList).dropLast.map String.ofList

/-- The printed lines are found again by cutting at the line ends. -/
theorem cutAt_printed {lines : List String} (h : ∀ line ∈ lines, OneLine line) :
    cutAt '\n' (String.join (lines.map (· ++ "\n"))).toList = lines.map String.toList ++ [[]] := by
  rw [String.toList_join]
  induction lines with
  | nil => rfl
  | cons line lines ih =>
      rw [List.forall_mem_cons] at h
      rw [List.map_cons, List.flatMap_cons, String.toList_append, List.append_assoc]
      have hFeed : "\n".toList = ['\n'] := rfl
      rw [hFeed, List.singleton_append, cutAt_append_separator h.1, ih h.2]
      rfl

/-- The lines of the output are the lines that were printed. -/
theorem Outcome.lines_printed {lines : List String} (h : ∀ line ∈ lines, OneLine line)
    (exit : Nat) (errors : String) :
    Outcome.lines { exit, output := String.join (lines.map (· ++ "\n")), errors } = lines := by
  rw [Outcome.lines, cutAt_printed h, List.dropLast_concat, List.map_map]
  exact (List.map_congr_left fun line _ => String.ofList_toList).trans (List.map_id lines)

namespace SolverName

/-- No solver fails, and its counters take one line. -/
theorem exists_solved (name : SolverName) (f : Formula) :
    ∃ solved, name.solve f = .ok solved ∧ f.Verdict solved.model ∧ OneLine solved.counters := by
  cases name with
  | dpll =>
      refine ⟨_, rfl, BacktrackingSolver.verdict f, ?_⟩
      simp only [oneLine_append, oneLine_nat, and_true]
      exact ⟨⟨by decide, by decide⟩, by decide⟩
  | brute =>
      obtain ⟨answer, solver, hSolve, hVerdict⟩ := TruthTableSolver.verdict f
      refine ⟨{ model := answer, counters := "checked=" ++ toString solver.checked }, ?_, hVerdict,
        oneLine_append.2 ⟨by decide, oneLine_nat _⟩⟩
      rw [solve, hSolve]
      rfl

end SolverName

end CommandLine

end SatLab
