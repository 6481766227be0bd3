import SatLab.Formula.Simplify
import SatLab.Proofs.Formula.Truth

/-! What simplification keeps. The residual formula is true under exactly the extensions that make
the formula true, and simplifying twice is simplifying once by the union. -/

namespace SatLab

/-- A literal has the value that the first assignment gives it, or else the second one. -/
theorem Literal.value?_union (l : Literal) (a b : Assignment) :
    l.value? (b ∪ a) = (l.value? a).or (l.value? b) := by
  simp only [value?, Assignment.getElem?_union_entry]
  cases a[l.name]? <;> rfl

namespace Clause

/-- A literal without a value is open; one that is false under `a` is false under `p`. -/
theorem trueUnder_residual_iff {c : Clause} {a : Assignment} {p : PartialValuation}
    (hp : a.Within p) (hSatisfied : ¬satisfiedBy c a = true) :
    TrueUnder (residual c a) p ↔ TrueUnder c p := by
  constructor
  · rintro ⟨l, hMem, hTrue⟩
    exact ⟨l, (List.mem_filter.1 hMem).1, hTrue⟩
  · rintro ⟨l, hMem, hTrue⟩
    refine ⟨l, List.mem_filter.2 ⟨hMem, ?_⟩, hTrue⟩
    rw [beq_iff_eq, Literal.value?_eq_none_iff]
    intro hAssigned
    obtain ⟨value, hValue⟩ := Assignment.mem_iff_exists_value.1 hAssigned
    have hSame : some value = some l.requiredValue :=
      (hp l.name value hValue).symm.trans hTrue
    apply hSatisfied
    rw [satisfiedBy_iff_trueUnder]
    exact ⟨l, hMem, hValue.trans hSame⟩

/-- Dropping the literals of two assignments, one after the other, drops those of their union. -/
theorem residual_residual (c : Clause) (a b : Assignment) :
    residual (residual c a) b = residual c (b ∪ a) := by
  simp only [residual, List.filter_filter, Literal.value?_union]
  apply List.filter_congr
  intro l _
  cases l.value? a <;> cases l.value? b <;> rfl

/-- A clause not yet satisfied is satisfied later exactly when what is left of it is. -/
theorem satisfiedBy_residual {c : Clause} {a : Assignment} (b : Assignment)
    (hSatisfied : ¬satisfiedBy c a = true) :
    satisfiedBy (residual c a) b = satisfiedBy c (b ∪ a) := by
  have hFalse : ∀ l ∈ c, l.value? a ≠ some true := by
    intro l hMem hTrue
    exact hSatisfied (satisfiedBy_iff.2 ⟨l, hMem, hTrue⟩)
  rw [Bool.eq_iff_iff, satisfiedBy_iff, satisfiedBy_iff]
  constructor
  · rintro ⟨l, hMem, hTrue⟩
    obtain ⟨hMem, hOpen⟩ := List.mem_filter.1 hMem
    refine ⟨l, hMem, ?_⟩
    rw [Literal.value?_union, beq_iff_eq.1 hOpen, Option.none_or, hTrue]
  · rintro ⟨l, hMem, hTrue⟩
    rw [Literal.value?_union] at hTrue
    cases hValue : l.value? a with
    | none =>
        rw [hValue, Option.none_or] at hTrue
        exact ⟨l, List.mem_filter.2 ⟨hMem, by rw [hValue]; rfl⟩, hTrue⟩
    | some value =>
        rw [hValue, Option.some_or] at hTrue
        exact (hFalse l hMem (hValue.trans hTrue)).elim

/-- A satisfied clause stays satisfied. -/
theorem satisfiedBy_union {c : Clause} {a : Assignment} (b : Assignment)
    (hSatisfied : satisfiedBy c a = true) : satisfiedBy c (b ∪ a) = true := by
  obtain ⟨l, hMem, hTrue⟩ := satisfiedBy_iff.1 hSatisfied
  refine satisfiedBy_iff.2 ⟨l, hMem, ?_⟩
  rw [Literal.value?_union, hTrue, Option.some_or]

end Clause

namespace Formula

variable {f g : Formula} {a b : Assignment}

theorem simplify_cons_of_satisfied {c : Clause} (h : Clause.satisfiedBy c a = true) :
    simplify (c :: f) a = f.simplify a := by
  rw [simplify, if_pos h]

theorem simplify_cons_of_contradicted {c : Clause} (h : ¬Clause.satisfiedBy c a = true)
    (hNil : Clause.residual c a = []) : simplify (c :: f) a = none := by
  rw [simplify, if_neg h]
  simp [hNil]

theorem simplify_cons_of_open {c : Clause} (h : ¬Clause.satisfiedBy c a = true)
    (hOpen : Clause.residual c a ≠ []) :
    simplify (c :: f) a = (f.simplify a).map (Clause.residual c a :: ·) := by
  rw [simplify, if_neg h]
  simp [hOpen]

/-- A formula is true under an extension if and only if the assignment contradicts none of its
clauses and what it leaves of them is true. -/
theorem trueUnder_iff_simplify {p : PartialValuation} (hp : a.Within p) :
    f.TrueUnder p ↔ ∃ g, f.simplify a = some g ∧ g.TrueUnder p := by
  induction f with
  | nil =>
      constructor
      · intro h
        exact ⟨[], rfl, h⟩
      · rintro ⟨g, _, _⟩ c hMem
        cases hMem
  | cons c f ih =>
      rw [trueUnder_cons, ih]
      by_cases hSatisfied : Clause.satisfiedBy c a = true
      · rw [simplify_cons_of_satisfied hSatisfied]
        have hClause : Clause.TrueUnder c p :=
          (Clause.satisfiedBy_iff_trueUnder.1 hSatisfied).mono hp
        exact and_iff_right hClause
      · rw [← Clause.trueUnder_residual_iff hp hSatisfied]
        by_cases hNil : Clause.residual c a = []
        · rw [simplify_cons_of_contradicted hSatisfied hNil, hNil]
          constructor
          · rintro ⟨hClause, _⟩
            exact (Clause.not_trueUnder_nil hClause).elim
          · rintro ⟨g, hNone, _⟩
            cases hNone
        · rw [simplify_cons_of_open hSatisfied hNil]
          constructor
          · rintro ⟨hClause, g, hg, hTrue⟩
            exact ⟨Clause.residual c a :: g, by rw [hg]; rfl, trueUnder_cons.2 ⟨hClause, hTrue⟩⟩
          · rintro ⟨g, hg, hTrue⟩
            obtain ⟨rest, hRest, rfl⟩ := Option.map_eq_some_iff.1 hg
            obtain ⟨hClause, hTrue⟩ := trueUnder_cons.1 hTrue
            exact ⟨hClause, rest, hRest, hTrue⟩

/-- What extends the assignment makes the formula true exactly when it makes what is left true. -/
theorem trueUnder_residual_iff {p : PartialValuation} (h : f.simplify a = some g)
    (hp : a.Within p) : g.TrueUnder p ↔ f.TrueUnder p := by
  rw [trueUnder_iff_simplify hp (f := f)]
  constructor
  · intro hTrue
    exact ⟨g, h, hTrue⟩
  · rintro ⟨g', hg', hTrue⟩
    rw [h, Option.some.injEq] at hg'
    rw [hg']
    exact hTrue

/-- A contradicted formula is true under nothing that extends the assignment. -/
theorem not_trueUnder_of_simplify_eq_none {p : PartialValuation} (h : f.simplify a = none)
    (hp : a.Within p) : ¬f.TrueUnder p := by
  rw [trueUnder_iff_simplify hp]
  rintro ⟨g, hg, _⟩
  rw [h] at hg
  cases hg

/-- A clause that loses all its literals is a contradiction, so none is left. -/
theorem nil_not_mem_of_simplify (h : f.simplify a = some g) : [] ∉ g := by
  induction f generalizing g with
  | nil =>
      cases h
      exact List.not_mem_nil
  | cons c f ih =>
      by_cases hSatisfied : Clause.satisfiedBy c a = true
      · rw [simplify_cons_of_satisfied hSatisfied] at h
        exact ih h
      · by_cases hNil : Clause.residual c a = []
        · rw [simplify_cons_of_contradicted hSatisfied hNil] at h
          cases h
        · rw [simplify_cons_of_open hSatisfied hNil] at h
          obtain ⟨rest, hRest, rfl⟩ := Option.map_eq_some_iff.1 h
          rw [List.mem_cons]
          rintro (hHead | hTail)
          · exact hNil hHead.symm
          · exact ih hRest hTail

/-- No empty clause is left. -/
theorem not_any_isEmpty_of_simplify (h : f.simplify a = some g) : ¬g.any List.isEmpty = true := by
  rw [List.any_eq_true]
  rintro ⟨c, hMem, hEmpty⟩
  rw [List.isEmpty_iff] at hEmpty
  exact nil_not_mem_of_simplify h (hEmpty ▸ hMem)

/-- Simplifying brings no new name into a formula. -/
theorem occurs_of_simplify {name : String} (h : f.simplify a = some g)
    (hOccurs : name ∈ g.occurrences) : name ∈ f.occurrences :=
  ((flatten_simplify_sublist h).map Literal.name).mem hOccurs

/-- Simplifying twice is simplifying once; where both assignments hold a name, the first one
counts. -/
theorem simplify_bind_simplify (f : Formula) (a b : Assignment) :
    (f.simplify a).bind (fun g => g.simplify b) = f.simplify (b ∪ a) := by
  induction f with
  | nil => rfl
  | cons c f ih =>
      by_cases hSatisfied : Clause.satisfiedBy c a = true
      · rw [simplify_cons_of_satisfied hSatisfied, ih,
          simplify_cons_of_satisfied (Clause.satisfiedBy_union b hSatisfied)]
      · have hResidual := Clause.residual_residual c a b
        have hAfter := Clause.satisfiedBy_residual b hSatisfied
        by_cases hNil : Clause.residual c a = []
        · rw [hNil] at hResidual hAfter
          rw [simplify_cons_of_contradicted hSatisfied hNil, Option.bind_none,
            simplify_cons_of_contradicted (ne_true_of_eq_false hAfter.symm) hResidual.symm]
        · rw [simplify_cons_of_open hSatisfied hNil, Option.bind_map]
          by_cases hThen : Clause.satisfiedBy (Clause.residual c a) b = true
          · rw [simplify_cons_of_satisfied (hAfter.symm.trans hThen), ← ih]
            congr 1
            funext g
            exact simplify_cons_of_satisfied hThen
          · have hThen' : ¬Clause.satisfiedBy c (b ∪ a) = true := hAfter ▸ hThen
            by_cases hNil' : Clause.residual (Clause.residual c a) b = []
            · rw [simplify_cons_of_contradicted hThen' (hResidual.symm.trans hNil')]
              cases simplify f a with
              | none => rfl
              | some g => exact simplify_cons_of_contradicted hThen hNil'
            · rw [simplify_cons_of_open hThen' (hResidual ▸ hNil'), ← ih, ← hResidual,
                Option.map_bind]
              congr 1
              funext g
              exact simplify_cons_of_open hThen hNil'

/-- Reading the residual formula again under an extension is reading the formula itself. -/
theorem simplify_residual (h : f.simplify a = some g) (hb : b.Extends a) :
    g.simplify b = f.simplify b := by
  have hTwice := simplify_bind_simplify f a b
  rw [Assignment.union_eq_of_extends hb, h] at hTwice
  exact hTwice

/-- Simplifying again changes nothing. -/
theorem simplify_self (h : f.simplify a = some g) : g.simplify a = some g :=
  (simplify_residual h (.refl a)).trans h

/-- Simplification composes. Two assignments one after the other act as the first one with those
entries of the second one whose names it lacks, so simplifying again changes nothing, and where they
give no name different values their order does not matter. What is left has no empty clause and no
variable of the assignment. -/
theorem simplify_composes (f : Formula) (a b : Assignment) :
    (f.simplify a).bind (fun g => g.simplify b) = f.simplify (b ∪ a) ∧
      (∀ name : String, (b ∪ a)[name]? = a[name]?.or b[name]?) ∧
      (f.simplify a).bind (fun g => g.simplify a) = f.simplify a ∧
      (a.Compatible b → (f.simplify a).bind (fun g => g.simplify b) =
        (f.simplify b).bind (fun g => g.simplify a)) ∧
      ∀ g, f.simplify a = some g → [] ∉ g ∧ ∀ name ∈ a, name ∉ g.occurrences := by
  refine ⟨simplify_bind_simplify f a b, a.getElem?_union_entry b, ?_, fun h => ?_, fun g h => ?_⟩
  · rw [simplify_bind_simplify, Assignment.union_eq_of_extends (.refl a)]
  · rw [simplify_bind_simplify, simplify_bind_simplify, h.union_comm]
  · refine ⟨nil_not_mem_of_simplify h, fun name hAssigned hOccurs => ?_⟩
    obtain ⟨l, hMem, rfl⟩ := List.mem_map.1 hOccurs
    exact name_not_mem_of_mem_simplify h hMem hAssigned

/-- The clauses hold literals more than once, and one of them a variable with its complement. -/
def knot : Formula :=
  [[⟨"k", false, by decide⟩, ⟨"m", false, by decide⟩, ⟨"k", false, by decide⟩],
    [⟨"m", true, by decide⟩, ⟨"n", false, by decide⟩, ⟨"n", false, by decide⟩],
    [⟨"n", true, by decide⟩, ⟨"k", true, by decide⟩, ⟨"n", false, by decide⟩]]

/-- The value of `k` that comes first counts; the one that comes second is not read. -/
theorem simplify_composes_knot :
    let a : Assignment := (∅ : Assignment).insert "k" false
    let b : Assignment := ((∅ : Assignment).insert "k" true).insert "m" true
    let c : Assignment := (∅ : Assignment).insert "m" true
    let left : Formula :=
      [[⟨"m", false, by decide⟩],
        [⟨"m", true, by decide⟩, ⟨"n", false, by decide⟩, ⟨"n", false, by decide⟩]]
    (knot.simplify a).bind (fun g => g.simplify b) = knot.simplify (b ∪ a) ∧
      (knot.simplify b).bind (fun g => g.simplify a) ≠ knot.simplify (b ∪ a) ∧
      a.Compatible c ∧ (knot.simplify a).bind (fun g => g.simplify c) =
        (knot.simplify c).bind (fun g => g.simplify a) ∧
      knot.simplify a = some left ∧ [] ∉ left ∧ ∀ name ∈ a, name ∉ left.occurrences := by
  intro a b c left
  have hCompatible : a.Compatible c := by
    intro name x y hx hy
    rw [Assignment.getElem?_insert_entry, Std.ExtTreeMap.getElem?_empty] at hx hy
    split at hx
    · next hk =>
        rw [← hk] at hy
        cases hy
    · cases hx
  have hLeft : knot.simplify a = some left := by decide +kernel
  obtain ⟨hTwice, _, _, _, _⟩ := simplify_composes knot a b
  obtain ⟨_, _, _, hOrder, hClean⟩ := simplify_composes knot a c
  exact ⟨hTwice, by decide +kernel, hCompatible, hOrder hCompatible, hLeft, hClean left hLeft⟩

end Formula

end SatLab
