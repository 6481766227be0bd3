import SatLab.Proofs.Formula.Reordering
import SatLab.Proofs.Search.FixedPoint

/-! Unit propagation is a closure. It reaches the least extension of its start that settles every
clause, so neither the order of the clauses nor the order in which units are resolved matters, and
fewer clauses or fewer values reach no more. -/

namespace SatLab

theorem Assignment.Extends.antisymm {a b : Assignment} (hab : a.Extends b) (hba : b.Extends a) :
    a = b := by
  apply Std.ExtTreeMap.ext_getElem?
  intro name
  apply Option.ext
  intro value
  exact ⟨hba name value, hab name value⟩

namespace Clause

/-- Nothing follows from the clause any more: it is true, or two of its literals are open. -/
def SettledBy (c : Clause) (a : Assignment) : Prop :=
  satisfiedBy c a = true ∨ 2 ≤ (residual c a).length

theorem SettledBy.perm {c d : Clause} {a : Assignment} (hPerm : c.Perm d) (h : SettledBy d a) :
    SettledBy c a := by
  rw [SettledBy, satisfiedBy_perm hPerm, (residual_perm hPerm).length_eq]
  exact h

end Clause

namespace Formula

def SettledBy (f : Formula) (a : Assignment) : Prop := ∀ c ∈ f, Clause.SettledBy c a

variable {f g : Formula} {a b : Assignment} {s t : Counters} {l : Literal}

/-- An assignment settles a formula exactly when every open clause has at least two literals. -/
theorem settledBy_iff_openClauses :
    f.SettledBy a ↔ ∀ d ∈ f.openClauses a, 2 ≤ d.length := by
  constructor
  · intro h d hMem
    obtain ⟨c, hClause, hOpen, rfl⟩ := mem_openClauses.1 hMem
    exact (h c hClause).resolve_left (ne_true_of_eq_false hOpen)
  · intro h c hMem
    cases hSatisfied : Clause.satisfiedBy c a with
    | true => exact .inl hSatisfied
    | false => exact .inr (h _ (mem_openClauses.2 ⟨c, hMem, hSatisfied, rfl⟩))

/-- A formula is settled where simplification leaves no unit clause. -/
theorem settledBy_iff : f.SettledBy a ↔ ∃ g, f.simplify a = some g ∧ g.firstUnit? = none := by
  rw [settledBy_iff_openClauses]
  constructor
  · intro h
    have hNil : [] ∉ f.openClauses a := fun hMem => absurd (h [] hMem) (by decide)
    refine ⟨f.openClauses a, ?_, ?_⟩
    · rw [simplify_eq_openClauses, if_neg hNil]
    · apply firstUnit?_eq_none_iff.2
      intro d hMem hOne
      have hTwo := h d hMem
      omega
  · intro h d hMem
    obtain ⟨g, hSimplify, hUnit⟩ := h
    rw [← eq_openClauses_of_simplify hSimplify] at hMem
    exact (isFixedPoint_of_settled hSimplify hUnit).twoLiterals d hMem

namespace SettledBy

/-- What settles a formula settles every part of it. -/
theorem of_among (h : g.SettledBy a) (hAmong : f.Among g) : f.SettledBy a := by
  intro c hMem
  obtain ⟨d, hClause, hPerm⟩ := hAmong c hMem
  exact (h d hClause).perm hPerm

/-- What an earlier assignment leaves is settled along with the formula. -/
theorem residual (h : f.SettledBy b) (hb : b.Extends a) (hSimplify : f.simplify a = some g) :
    g.SettledBy b := by
  rw [settledBy_iff] at h ⊢
  rwa [simplify_residual hSimplify hb]

/-- An assignment below a settling one contradicts nothing. -/
theorem simplify_ne_none (h : f.SettledBy b) (hb : b.Extends a) : f.simplify a ≠ none := by
  intro hNone
  obtain ⟨g, hSimplify, hUnit⟩ := settledBy_iff.1 h
  have hTwice := simplify_bind_simplify f a b
  rw [hNone, Assignment.union_eq_of_extends hb, hSimplify] at hTwice
  cases hTwice

/-- A unit clause leaves only one way to be settled. -/
theorem unit_true (h : g.SettledBy b) (hUnit : g.firstUnit? = some l) : l.TrueUnder b.values := by
  rcases h [l] (mem_of_firstUnit? hUnit) with hTrue | hOpen
  · obtain ⟨k, hMem, hValue⟩ := Clause.satisfiedBy_iff.1 hTrue
    rw [List.mem_singleton] at hMem
    rw [← hMem]
    exact Literal.value?_eq_some_true_iff.1 hValue
  · have hOne : (Clause.residual [l] b).length ≤ 1 := List.length_filter_le _ [l]
    omega

end SettledBy

namespace PropagationRun

variable {reached : Propagated}

/-- Propagation without a contradiction ends in an assignment that settles the formula. -/
theorem settles (run : PropagationRun f a s reached) (hLeft : reached.residual = some g) :
    f.SettledBy reached.assignment :=
  settledBy_iff.2 ⟨g, run.simplify_reached hLeft, run.unit_free hLeft⟩

/-- Propagation goes no further than any extension of its start that settles the formula, and with
such an extension it meets no contradiction. -/
theorem least (run : PropagationRun f a s reached) (h : f.SettledBy b) (hb : b.Extends a) :
    b.Extends reached.assignment ∧ ∃ g, reached.residual = some g := by
  induction run with
  | contradiction hSimplify => exact (h.simplify_ne_none hb hSimplify).elim
  | settled => exact ⟨hb, _, rfl⟩
  | resolved hSimplify hUnit rest ih =>
      have hLeft := h.residual hb hSimplify
      have hNext : Assignment.Within _ b.values :=
        Assignment.Within.insert hb (hLeft.unit_true hUnit)
      exact ih hLeft hNext

end PropagationRun

/-- Two propagations end alike: both with a contradiction, or with the same assignment, the same
counters and the same clauses up to order. -/
inductive EndAlike : Propagated → Propagated → Prop where
  | contradiction {x y : Propagated} (hx : x.residual = none) (hy : y.residual = none) :
      EndAlike x y
  | left {x y : Propagated} {f g : Formula} (hx : x.residual = some f) (hy : y.residual = some g)
      (hClauses : f.Reordered g) (hAssignment : x.assignment = y.assignment)
      (hCounters : x.counters = y.counters) : EndAlike x y

/-- A propagation that succeeds bounds the one from fewer clauses and fewer values. -/
theorem propagate_within (hAmong : f.Among g) (hb : b.Extends a) {g' : Formula}
    (hLeft : (g.propagate b t).residual = some g') (s : Counters) :
    (g.propagate b t).assignment.Extends (f.propagate a s).assignment ∧
      ∃ f', (f.propagate a s).residual = some f' := by
  have run := propagationRun g b t
  have hSettled := (run.settles hLeft).of_among hAmong
  exact (propagationRun f a s).least hSettled (run.extends_start.trans hb)

/-- If one of two reordered formulas is propagated without a contradiction, so is the other one, and
each assignment bounds the other. -/
theorem endAlike_of_reordered (h : f.Reordered g) (a : Assignment) (s : Counters) :
    EndAlike (f.propagate a s) (g.propagate a s) := by
  have runF := propagationRun f a s
  have runG := propagationRun g a s
  cases hf : (f.propagate a s).residual with
  | none =>
      cases hg : (g.propagate a s).residual with
      | none => exact .contradiction hf hg
      | some g' =>
          obtain ⟨_, f', hSome⟩ := propagate_within h.among (.refl a) hg s
          cases hf.symm.trans hSome
  | some f' =>
      obtain ⟨hBelow, g', hg⟩ := propagate_within h.symm.among (.refl a) hf s
      obtain ⟨hAbove, _⟩ := propagate_within h.among (.refl a) hg s
      have hAssignment := hBelow.antisymm hAbove
      have hClauses := h.openClauses (f.propagate a s).assignment
      rw [← eq_openClauses_of_simplify (runF.simplify_reached hf), hAssignment,
        ← eq_openClauses_of_simplify (runG.simplify_reached hg)] at hClauses
      apply EndAlike.left hf hg hClauses hAssignment
      rw [runF.counters_eq, runG.counters_eq, hAssignment]

/-- Propagation is monotone, and no order matters to it. Where it succeeds it also succeeds for some
of the clauses and some of the values and then reaches no more; and the same clauses in another
order end alike. -/
theorem propagate_confluent (f g : Formula) :
    (f.Among g → ∀ (a b : Assignment) (s t : Counters) (g' : Formula), b.Extends a →
      (g.propagate b t).residual = some g' →
      (∃ f', (f.propagate a s).residual = some f') ∧
        (g.propagate b t).assignment.Extends (f.propagate a s).assignment) ∧
    (f.Reordered g → ∀ (a : Assignment) (s : Counters),
      EndAlike (f.propagate a s) (g.propagate a s)) := by
  constructor
  · intro hAmong a b s t g' hb hLeft
    exact (propagate_within hAmong hb hLeft s).symm
  · intro hReordered a s
    exact endAlike_of_reordered hReordered a s

/-- The clauses of the cascade and their literals from the last to the first. -/
def cascadeBack : Formula := (cascade.map List.reverse).reverse

theorem propagate_confluent_cascade :
    Among (cascadeBack.take 2) cascade ∧ cascade.Reordered cascadeBack ∧
      Assignment.Extends cascadeReached ((propagate (cascadeBack.take 2) ∅ .zero).assignment) ∧
      EndAlike (cascade.propagate forkStart .zero) (cascadeBack.propagate forkStart .zero) := by
  have hReordered : cascade.Reordered cascadeBack := by
    refine ⟨cascade.reverse, (List.reverse_perm _).symm, ?_⟩
    rw [cascadeBack, ← List.map_reverse, List.forall₂_map_right_iff, List.forall₂_same]
    exact fun c _ => (List.reverse_perm c).symm
  have hAmong : Among (cascadeBack.take 2) cascade := fun c hMem =>
    hReordered.symm.among c (List.mem_of_mem_take hMem)
  have hExtends : Assignment.Extends forkStart ∅ := by
    intro name value hEntry
    rw [Std.ExtTreeMap.getElem?_empty] at hEntry
    cases hEntry
  have hReached : (cascade.propagate forkStart .zero).assignment = cascadeReached := by
    decide +kernel
  have hLeft : (cascade.propagate forkStart .zero).residual = some cascadeLeft := by
    decide +kernel
  have hWithin := (propagate_confluent (cascadeBack.take 2) cascade).1 hAmong ∅ forkStart .zero
    .zero cascadeLeft hExtends hLeft
  rw [hReached] at hWithin
  exact ⟨hAmong, hReordered, hWithin.2,
    (propagate_confluent cascade cascadeBack).2 hReordered forkStart .zero⟩

end Formula

end SatLab
