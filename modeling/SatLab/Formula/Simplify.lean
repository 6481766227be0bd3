import SatLab.Formula.Satisfaction

/-!
What an assignment leaves of a formula: clauses it satisfies are dropped, and literals it makes
false are removed. A clause that loses all its literals is a contradiction.

No literal of an assigned variable is left, and the literals that are left keep their order.
-/

namespace SatLab

namespace Clause

/-- The literals of a clause that an assignment leaves open. -/
def residual (c : Clause) (a : Assignment) : Clause := c.filter fun l => l.value? a == none

end Clause

namespace Formula

/-- The clauses that an assignment leaves open, or none if it contradicts a clause. -/
def simplify (f : Formula) (a : Assignment) : Option Formula :=
  match f with
  | [] => some []
  | c :: rest =>
    if Clause.satisfiedBy c a then simplify rest a
    else
      let left := Clause.residual c a
      if left.isEmpty then none else (simplify rest a).map (left :: ·)

/-- Simplification only removes literals. -/
theorem flatten_simplify_sublist {f g : Formula} {a : Assignment} (h : f.simplify a = some g) :
    g.flatten.Sublist f.flatten := by
  induction f generalizing g with
  | nil =>
      simp only [simplify, Option.some.injEq] at h
      subst h
      exact .refl _
  | cons c rest ih =>
      simp only [simplify] at h
      split at h
      · exact (ih h).trans (List.sublist_append_right _ _)
      · split at h
        · cases h
        · obtain ⟨tail, hTail, rfl⟩ := Option.map_eq_some_iff.1 h
          exact List.Sublist.append List.filter_sublist (ih hTail)

/-- No variable of the assignment is left. -/
theorem name_not_mem_of_mem_simplify {f g : Formula} {a : Assignment}
    (h : f.simplify a = some g) {l : Literal} (hMem : l ∈ g.flatten) : l.name ∉ a := by
  induction f generalizing g with
  | nil =>
      simp only [simplify, Option.some.injEq] at h
      subst h
      cases hMem
  | cons c rest ih =>
      simp only [simplify] at h
      split at h
      · exact ih h hMem
      · split at h
        · cases h
        · obtain ⟨tail, hTail, rfl⟩ := Option.map_eq_some_iff.1 h
          rw [List.flatten_cons, List.mem_append] at hMem
          rcases hMem with hHead | hRest
          · simp only [Clause.residual, List.mem_filter, beq_iff_eq] at hHead
            exact Literal.value?_eq_none_iff.1 hHead.2
          · exact ih hTail hRest

/-- A stronger condition that fails for a member counts fewer members. -/
theorem countP_lt_countP {α : Type} {p q : α → Bool} {xs : List α} {x : α}
    (hImp : ∀ y, p y = true → q y = true) (hMem : x ∈ xs) (hq : q x = true)
    (hp : p x = false) : xs.countP p < xs.countP q := by
  obtain ⟨before, after, rfl⟩ := List.append_of_mem hMem
  have hBefore : before.countP p ≤ before.countP q := List.countP_mono_left fun y _ => hImp y
  have hAfter : after.countP p ≤ after.countP q := List.countP_mono_left fun y _ => hImp y
  rw [List.countP_append, List.countP_append, List.countP_cons_of_pos hq,
    List.countP_cons_of_neg (by simp [hp])]
  omega

/-- The literal occurrences whose variable is unassigned. This number bounds propagation and
search. -/
def openOccurrences (f : Formula) (a : Assignment) : Nat := f.flatten.countP (·.isOpen a)

/-- Fewer literals and more assigned names leave no more open occurrences. -/
theorem openOccurrences_le {f g : Formula} {a b : Assignment}
    (hLiterals : g.flatten.Sublist f.flatten) (hNames : ∀ name, name ∈ a → name ∈ b) :
    g.openOccurrences b ≤ f.openOccurrences a := by
  refine Nat.le_trans hLiterals.countP_le (List.countP_mono_left fun l _ => ?_)
  rw [Literal.isOpen_iff, Literal.isOpen_iff]
  exact fun hNot hMem => hNot (hNames _ hMem)

/-- Assigning the variable of an open literal closes an occurrence. -/
theorem openOccurrences_insert_lt {f : Formula} {a : Assignment} {l : Literal} {value : Bool}
    (hMem : l ∈ f.flatten) (hOpen : l.name ∉ a) :
    f.openOccurrences (a.insert l.name value) < f.openOccurrences a := by
  refine countP_lt_countP (fun k => ?_) hMem (Literal.isOpen_iff.2 hOpen) ?_
  · rw [Literal.isOpen_iff, Literal.isOpen_iff]
    exact fun hNot hK => hNot (Std.ExtTreeMap.mem_insert.2 (.inr hK))
  · simp [Literal.isOpen]

end Formula

end SatLab
