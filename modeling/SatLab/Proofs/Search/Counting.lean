import SatLab.Proofs.Search.Assumptions
import SatLab.Proofs.Search.FixedPoint

/-! What the counters say about the tree of a search. A subtree without a model is a full binary
tree whose nodes all fail. Along the way to a model only the subtrees that were left behind fail. -/

namespace SatLab

theorem Counters.zero_add (s : Counters) : Counters.zero + s = s := by
  change Counters.mk (0 + s.decisions) (0 + s.propagations) (0 + s.conflicts) = s
  simp only [Nat.zero_add]

namespace Formula

/-- The way of a search to its model, by the value that each branch point on it ends with. The
branch of the value true is left behind after it failed. -/
inductive ModelPath : Formula → Assignment → List Bool → Assignment → Prop where
  | solved {f : Formula} {a : Assignment} {s : Counters} {reached : Propagated}
      (run : PropagationRun f a s reached) (hLeft : reached.residual = some []) :
      ModelPath f a [] reached.assignment
  | onTrue {f g : Formula} {a model : Assignment} {s : Counters} {reached : Propagated}
      {l : Literal} {values : List Bool} (run : PropagationRun f a s reached)
      (hLeft : reached.residual = some g)
      (hSelect : g.selectLiteral? reached.assignment = some l)
      (rest : ModelPath g (reached.assignment.insert l.name true) values model) :
      ModelPath f a (true :: values) model
  | onFalse {f g : Formula} {a model : Assignment} {s t : Counters} {reached : Propagated}
      {l : Literal} {values : List Bool} (run : PropagationRun f a s reached)
      (hLeft : reached.residual = some g)
      (hSelect : g.selectLiteral? reached.assignment = some l)
      (hFailed : (g.search (reached.assignment.insert l.name true) t).1 = none)
      (rest : ModelPath g (reached.assignment.insert l.name false) values model) :
      ModelPath f a (false :: values) model

namespace PropagationRun

variable {f g : Formula} {a : Assignment} {s : Counters} {reached : Propagated} {l : Literal}

/-- Propagation counts the entries it makes as propagations, and nothing else. -/
theorem counts (run : PropagationRun f a s reached) :
    ∃ steps, reached.assignment.size = a.size + steps ∧
      reached.counters.decisions = s.decisions ∧
      reached.counters.propagations = s.propagations + steps ∧
      reached.counters.conflicts = s.conflicts := by
  obtain ⟨steps, hSize, hCounters⟩ := run.exists_steps
  rw [hCounters]
  exact ⟨steps, hSize, rfl, rfl, rfl⟩

/-- What a branch point hands on. -/
theorem branch_counts (run : PropagationRun f a s reached)
    (hSelect : g.selectLiteral? reached.assignment = some l) (value : Bool) :
    ∃ steps, (reached.assignment.insert l.name value).size = a.size + steps + 1 ∧
      reached.counters.addDecision.decisions = s.decisions + 1 ∧
      reached.counters.addDecision.propagations = s.propagations + steps ∧
      reached.counters.addDecision.conflicts = s.conflicts := by
  obtain ⟨steps, hSize, hDecisions, hPropagations, hConflicts⟩ := run.counts
  have hBranch := Assignment.size_insert_entry (unassigned_of_selectLiteral? hSelect) value
  exact ⟨steps, hSize ▸ hBranch, congrArg (· + 1) hDecisions, hPropagations, hConflicts⟩

end PropagationRun

/-- How the counters grow on the way to a model. The work in subtrees that failed on the way is
lost: it leaves no entry. -/
structure PathCounts (a model : Assignment) (values : List Bool) (lost : Nat) (s t : Counters) :
    Prop where
  decisions : s.decisions + values.length ≤ t.decisions
  conflicts : t.conflicts + 2 * (s.decisions + values.length) =
    s.conflicts + 2 * t.decisions + values.count false
  grows : a.size ≤ model.size
  size : model.size + lost + s.decisions + s.propagations =
    a.size + t.decisions + t.propagations
  lost_eq_zero : t.conflicts = s.conflicts → lost = 0

namespace SearchRun

variable {f : Formula} {a model : Assignment} {s : Counters}
    {result : Option Assignment × Counters}

/-- Counters never go down. -/
theorem counters_le (run : SearchRun f a s result) :
    s.decisions ≤ result.2.decisions ∧ s.propagations ≤ result.2.propagations := by
  induction run with
  | contradiction run =>
      obtain ⟨steps, _, hDecisions, hPropagations, _⟩ := run.counts
      exact ⟨Nat.le_of_eq hDecisions.symm, hPropagations ▸ Nat.le_add_right _ _⟩
  | solved run =>
      obtain ⟨steps, _, hDecisions, hPropagations, _⟩ := run.counts
      exact ⟨Nat.le_of_eq hDecisions.symm, hPropagations ▸ Nat.le_add_right _ _⟩
  | onTrue run hLeft hSelect left ihLeft =>
      obtain ⟨steps, _, hDecisions, hPropagations, _⟩ := run.branch_counts hSelect true
      omega
  | onFalse run hLeft hSelect left right ihLeft ihRight =>
      obtain ⟨steps, _, hDecisions, hPropagations, _⟩ := run.branch_counts hSelect true
      dsimp only at ihLeft ihRight ⊢
      omega
  | failed run hLeft hSelect left right ihLeft ihRight =>
      obtain ⟨steps, _, hDecisions, hPropagations, _⟩ := run.branch_counts hSelect true
      simp only [Counters.addConflict] at ihLeft ihRight ⊢
      omega

/-- Every node of a search without a model fails, and a branch point has two branches there. -/
theorem conflicts_of_none (run : SearchRun f a s result) (h : result.1 = none) :
    result.2.conflicts + 2 * s.decisions = s.conflicts + 2 * result.2.decisions + 1 := by
  induction run with
  | contradiction run =>
      obtain ⟨steps, _, hDecisions, _, hConflicts⟩ := run.counts
      simp only [Counters.addConflict]
      omega
  | solved => cases h
  | onTrue => cases h
  | onFalse => cases h
  | failed run hLeft hSelect left right ihLeft ihRight =>
      obtain ⟨steps, _, hDecisions, _, hConflicts⟩ := run.branch_counts hSelect true
      have hTrue := ihLeft rfl
      have hFalse := ihRight rfl
      simp only [Counters.addConflict] at hTrue hFalse ⊢
      omega

/-- A search that finds a model has taken a path to it, and its counters are those of the path. -/
theorem exists_modelPath (run : SearchRun f a s result) (h : result.1 = some model) :
    ∃ values lost, ModelPath f a values model ∧ PathCounts a model values lost s result.2 := by
  induction run with
  | contradiction => cases h
  | solved run hLeft =>
      cases h
      obtain ⟨steps, hSize, hDecisions, hPropagations, hConflicts⟩ := run.counts
      refine ⟨[], 0, .solved run hLeft, ?_⟩
      constructor
      · exact Nat.le_of_eq hDecisions.symm
      · rw [hDecisions, hConflicts]
        rfl
      · exact run.size_le
      · dsimp only
        omega
      · exact fun _ => rfl
  | onTrue run hLeft hSelect left ihLeft =>
      obtain ⟨steps, hSize, hDecisions, hPropagations, hConflicts⟩ := run.branch_counts hSelect true
      obtain ⟨values, lost, hPath, hAll, hFailed, hGrows, hEntries, hLost⟩ := ihLeft h
      refine ⟨true :: values, lost, .onTrue run hLeft hSelect hPath, ?_⟩
      constructor
      · rw [List.length_cons]
        omega
      · rw [List.length_cons, List.count_cons_of_ne (by decide)]
        omega
      · omega
      · omega
      · exact fun hSame => hLost (hSame.trans hConflicts.symm)
  | @onFalse f g a model s s' s'' reached l run hLeft hSelect left right ihLeft ihRight =>
      obtain ⟨steps, hSize, hDecisions, hPropagations, hConflicts⟩ :=
        run.branch_counts hSelect false
      obtain ⟨values, lost, hPath, hAll, hFailed, hGrows, hEntries, hLost⟩ := ihRight h
      obtain ⟨hMoreDecisions, hMorePropagations⟩ := left.counters_le
      have hSubtree := left.conflicts_of_none rfl
      have hWay := ModelPath.onFalse run hLeft hSelect (congrArg Prod.fst left.eq_search) hPath
      dsimp only at hSubtree hMoreDecisions hMorePropagations hAll hFailed hEntries ⊢
      -- All that the branch of true has done is lost, and it counts at least one conflict.
      refine ⟨false :: values, lost + (s'.decisions - reached.counters.addDecision.decisions) +
        (s'.propagations - reached.counters.addDecision.propagations), hWay, ?_⟩
      constructor
      · rw [List.length_cons]
        omega
      · rw [List.length_cons, List.count_cons_self]
        omega
      · omega
      · omega
      · intro hSame
        omega
  | failed => cases h

end SearchRun

/-- The counters of a search describe its tree, whatever was counted before. In a tree without a
model every node fails, so there are twice as many conflicts as decisions and one more. On the way
to a model no node fails, but each of its branch points that ends with false has left a tree without
a model behind. The entries of the model were decided or propagated, and without conflicts nothing
else was. -/
theorem search_counts (f : Formula) (a : Assignment) :
    ∃ (found : Option Assignment) (added : Counters), (∀ s, f.search a s = (found, s + added)) ∧
      match found with
      | none => added.conflicts = 2 * added.decisions + 1
      | some model => ∃ values, ModelPath f a values model ∧
          values.count false ≤ values.length ∧ values.length ≤ added.decisions ∧
          added.conflicts = 2 * (added.decisions - values.length) + values.count false ∧
          a.size ≤ model.size ∧ model.size - a.size ≤ added.decisions + added.propagations ∧
          (added.conflicts = 0 → model.size - a.size = added.decisions + added.propagations) := by
  have run := searchRun f a .zero
  have hNone : Counters.zero.decisions = 0 ∧ Counters.zero.propagations = 0 ∧
    Counters.zero.conflicts = 0 := ⟨rfl, rfl, rfl⟩
  refine ⟨(f.search a .zero).1, (f.search a .zero).2, fun s => (run.add s).eq_search, ?_⟩
  cases hFound : (f.search a .zero).1 with
  | none =>
      have hConflicts := run.conflicts_of_none hFound
      dsimp only
      omega
  | some model =>
      obtain ⟨values, lost, hPath, hAll, hFailed, hGrows, hEntries, hLost⟩ :=
        run.exists_modelPath hFound
      refine ⟨values, hPath, List.count_le_length, by omega, by omega, hGrows, by omega, ?_⟩
      intro hSound
      have hNoneLost := hLost (hSound.trans hNone.2.2.symm)
      omega

def cascadeModel : Assignment := (cascadeReached.insert "r" true).insert "s" true

/-- The way to a model of the fork leaves one tree behind. The cascade has a model without any
conflict. -/
theorem search_counts_fork :
    (∃ values, ModelPath fork forkStart values forkModel ∧ values.length = 2 ∧
      values.count false = 1) ∧
    ∃ values, ModelPath cascade forkStart values cascadeModel ∧ values.length ≤ 1 ∧
      cascadeModel.size - forkStart.size = 1 + 3 := by
  constructor
  · obtain ⟨found, added, hSearch, hCounts⟩ := search_counts fork forkStart
    have hRun : fork.search forkStart .zero = (some forkModel, ⟨2, 2, 1⟩) := by decide +kernel
    rw [hSearch, Prod.mk.injEq, Counters.zero_add] at hRun
    obtain ⟨rfl, rfl⟩ := hRun
    obtain ⟨values, hPath, hFalse, hAll, hFailed, _⟩ := hCounts
    dsimp only at hAll hFailed
    exact ⟨values, hPath, by omega, by omega⟩
  · obtain ⟨found, added, hSearch, hCounts⟩ := search_counts cascade forkStart
    have hRun : cascade.search forkStart .zero = (some cascadeModel, ⟨1, 3, 0⟩) := by
      decide +kernel
    rw [hSearch, Prod.mk.injEq, Counters.zero_add] at hRun
    obtain ⟨rfl, rfl⟩ := hRun
    obtain ⟨values, hPath, _, hAll, _, _, _, hSize⟩ := hCounts
    exact ⟨values, hPath, hAll, hSize rfl⟩

end Formula

end SatLab
