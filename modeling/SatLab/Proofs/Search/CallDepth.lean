import Mathlib.Algebra.Order.Ring.Nat
import SatLab.Proofs.Formula.OpenVariables
import SatLab.Proofs.Search.Counting

/-! How deep and how long a search can get. Every unit clause and every branch gives a value to a
variable that occurs and has none, so the open variables bound the nested calls, the rounds of a
propagation and, by their truth table, the decisions. -/

namespace SatLab

namespace Formula

theorem two_pow_add_two_pow_le {k m n : Nat} (hk : k < n) (hm : m < n) :
    2 ^ k + 2 ^ m ≤ 2 ^ n := by
  obtain ⟨p, rfl⟩ := Nat.exists_eq_add_one_of_ne_zero (Nat.ne_zero_of_lt hk)
  have hLeft : 2 ^ k ≤ 2 ^ p := Nat.pow_le_pow_right (by decide) (Nat.le_of_lt_succ hk)
  have hRight : 2 ^ m ≤ 2 ^ p := Nat.pow_le_pow_right (by decide) (Nat.le_of_lt_succ hm)
  rw [Nat.pow_succ]
  omega

/-- Propagation that gives up when it would simplify more than `rounds` times. -/
def propagateWithin (rounds : Nat) (f : Formula) (a : Assignment) (s : Counters) :
    Option Propagated :=
  match rounds with
  | 0 => none
  | rounds + 1 =>
    match f.simplify a with
    | none => some { residual := none, assignment := a, counters := s }
    | some g =>
      match g.firstUnit? with
      | none => some { residual := some g, assignment := a, counters := s }
      | some l =>
        if a[l.name]? = some (!l.requiredValue) then
          some { residual := none, assignment := a, counters := s }
        else propagateWithin rounds g (a.insert l.name l.requiredValue) s.addPropagation

/-- The search that gives up when its calls would nest deeper than `depth`, or when one of them
would simplify more than `rounds` times in its propagation. -/
def searchWithin (rounds depth : Nat) (f : Formula) (a : Assignment) (s : Counters) :
    Option (Option Assignment × Counters) :=
  match depth with
  | 0 => none
  | depth + 1 => do
    let reached ← f.propagateWithin rounds a s
    match reached.residual with
    | none => return (none, reached.counters.addConflict)
    | some g =>
      if g.isEmpty then return (some reached.assignment, reached.counters)
      else if g.any List.isEmpty then return (none, reached.counters.addConflict)
      else
        match g.selectLiteral? reached.assignment with
        | none => return (none, reached.counters.addConflict)
        | some l =>
          match ← searchWithin rounds depth g (reached.assignment.insert l.name true)
              reached.counters.addDecision with
          | (some model, s') => return (some model, s')
          | (none, s') =>
            match ← searchWithin rounds depth g (reached.assignment.insert l.name false) s' with
            | (some model, s'') => return (some model, s'')
            | (none, s'') => return (none, s''.addConflict)

variable {f g : Formula} {a : Assignment} {s : Counters} {reached : Propagated} {l : Literal}
    {rounds depth : Nat}

/-- A value for a literal that is left leaves fewer variables open. -/
theorem length_openVariables_insert_lt {b : Assignment} (hSimplify : f.simplify b = some g)
    (hb : b.Extends a) (hMem : l ∈ g.flatten) (value : Bool) :
    (g.openVariables (b.insert l.name value)).length < (f.openVariables a).length := by
  have hOccurs : l.name ∈ g.occurrences := List.mem_map_of_mem hMem
  have hOpen : l.name ∉ b := name_not_mem_of_mem_simplify hSimplify hMem
  apply length_openVariables_lt l.name
  · exact fun name => occurs_of_simplify hSimplify
  · exact fun name hOld => Assignment.mem_insert_entry.2 (.inr (hb.mem hOld))
  · exact occurs_of_simplify hSimplify hOccurs
  · exact fun hOld => hOpen (hb.mem hOld)
  · exact Assignment.mem_insert_entry.2 (.inl rfl)

namespace PropagationRun

/-- Every branch has fewer open variables than its node. -/
theorem length_openVariables_branch (run : PropagationRun f a s reached)
    (hLeft : reached.residual = some g) (hSelect : g.selectLiteral? reached.assignment = some l)
    (value : Bool) :
    (g.openVariables (reached.assignment.insert l.name value)).length <
      (f.openVariables a).length :=
  length_openVariables_insert_lt (run.simplify_reached hLeft) run.extends_start
    (mem_of_selectLiteral? hSelect) value

/-- One round more than there are open variables is enough: each round but the last gives one of
them a value. -/
theorem propagateWithin_eq (run : PropagationRun f a s reached)
    (hRounds : (f.openVariables a).length < rounds) :
    f.propagateWithin rounds a s = some reached := by
  induction run generalizing rounds with
  | contradiction hSimplify =>
      obtain ⟨rounds, rfl⟩ := Nat.exists_eq_add_of_lt hRounds
      rw [propagateWithin, hSimplify]
  | settled hSimplify hUnit =>
      obtain ⟨rounds, rfl⟩ := Nat.exists_eq_add_of_lt hRounds
      rw [propagateWithin, hSimplify]
      simp only [hUnit]
  | @resolved f g a s l reached hSimplify hUnit rest ih =>
      obtain ⟨rounds, rfl⟩ := Nat.exists_eq_add_of_lt hRounds
      have hFewer := length_openVariables_insert_lt hSimplify (.refl a)
        (mem_flatten_of_firstUnit? hUnit) l.requiredValue
      rw [propagateWithin, hSimplify]
      simp only [hUnit]
      rw [if_neg (unit_not_refused hSimplify hUnit)]
      apply ih
      omega

end PropagationRun

/-- A node with an open literal searches both of its branches one level deeper. -/
theorem searchWithin_of_selected (run : PropagationRun f a s reached)
    (hRounds : (f.openVariables a).length < rounds) (hLeft : reached.residual = some g)
    (hSelect : g.selectLiteral? reached.assignment = some l) :
    f.searchWithin rounds (depth + 1) a s = do
      match ← g.searchWithin rounds depth (reached.assignment.insert l.name true)
          reached.counters.addDecision with
      | (some model, s') => return (some model, s')
      | (none, s') =>
        match ← g.searchWithin rounds depth (reached.assignment.insert l.name false) s' with
        | (some model, s'') => return (some model, s'')
        | (none, s'') => return (none, s''.addConflict) := by
  have hOpen := not_isEmpty_of_selectLiteral? hSelect
  have hNoNil := run.not_any_isEmpty hLeft
  rw [searchWithin, run.propagateWithin_eq hRounds]
  simp only [Option.bind_eq_bind, Option.bind_some, hLeft, hSelect, if_neg hOpen, if_neg hNoNil]

namespace SearchRun

variable {result : Option Assignment × Counters}

/-- With more rounds and more calls than open variables, the limits are never met. -/
theorem searchWithin_eq (run : SearchRun f a s result)
    (hRounds : (f.openVariables a).length < rounds)
    (hDepth : (f.openVariables a).length < depth) :
    f.searchWithin rounds depth a s = some result := by
  induction run generalizing depth with
  | contradiction run hLeft =>
      obtain ⟨depth, rfl⟩ := Nat.exists_eq_add_of_lt hDepth
      rw [searchWithin, run.propagateWithin_eq hRounds]
      simp only [Option.bind_eq_bind, Option.bind_some, hLeft]
      rfl
  | solved run hLeft =>
      obtain ⟨depth, rfl⟩ := Nat.exists_eq_add_of_lt hDepth
      rw [searchWithin, run.propagateWithin_eq hRounds]
      simp only [Option.bind_eq_bind, Option.bind_some, hLeft]
      rfl
  | onTrue run hLeft hSelect left ihLeft =>
      obtain ⟨depth, rfl⟩ := Nat.exists_eq_add_of_lt hDepth
      have hTrue := run.length_openVariables_branch hLeft hSelect true
      rw [searchWithin_of_selected run hRounds hLeft hSelect, ihLeft (by omega) (by omega)]
      rfl
  | onFalse run hLeft hSelect left right ihLeft ihRight =>
      obtain ⟨depth, rfl⟩ := Nat.exists_eq_add_of_lt hDepth
      have hTrue := run.length_openVariables_branch hLeft hSelect true
      have hFalse := run.length_openVariables_branch hLeft hSelect false
      rw [searchWithin_of_selected run hRounds hLeft hSelect, ihLeft (by omega) (by omega)]
      simp only [Option.bind_eq_bind, Option.bind_some]
      rw [ihRight (by omega) (by omega)]
      rfl
  | failed run hLeft hSelect left right ihLeft ihRight =>
      obtain ⟨depth, rfl⟩ := Nat.exists_eq_add_of_lt hDepth
      have hTrue := run.length_openVariables_branch hLeft hSelect true
      have hFalse := run.length_openVariables_branch hLeft hSelect false
      rw [searchWithin_of_selected run hRounds hLeft hSelect, ihLeft (by omega) (by omega)]
      simp only [Option.bind_eq_bind, Option.bind_some]
      rw [ihRight (by omega) (by omega)]
      rfl

/-- Both branches of a node have fewer open variables, and the node itself is one decision. -/
theorem decisions_lt (run : SearchRun f a s result) :
    result.2.decisions < s.decisions + 2 ^ (f.openVariables a).length := by
  induction run with
  | @contradiction f a s reached run hLeft =>
      obtain ⟨steps, _, hDecisions, _, _⟩ := run.counts
      have hPos := Nat.two_pow_pos (f.openVariables a).length
      simp only [Counters.addConflict]
      omega
  | @solved f a s reached run hLeft =>
      obtain ⟨steps, _, hDecisions, _, _⟩ := run.counts
      have hPos := Nat.two_pow_pos (f.openVariables a).length
      dsimp only
      omega
  | @onTrue f g a model s s' reached l run hLeft hSelect left ihLeft =>
      obtain ⟨steps, _, hDecisions, _, _⟩ := run.branch_counts hSelect true
      have hBranch := run.length_openVariables_branch hLeft hSelect true
      have hPowers := two_pow_add_two_pow_le hBranch hBranch
      have hPos := Nat.two_pow_pos
        (g.openVariables (reached.assignment.insert l.name true)).length
      dsimp only at ihLeft ⊢
      omega
  | onFalse run hLeft hSelect left right ihLeft ihRight =>
      obtain ⟨steps, _, hDecisions, _, _⟩ := run.branch_counts hSelect true
      have hPowers := two_pow_add_two_pow_le (run.length_openVariables_branch hLeft hSelect true)
        (run.length_openVariables_branch hLeft hSelect false)
      dsimp only at ihLeft ihRight ⊢
      omega
  | failed run hLeft hSelect left right ihLeft ihRight =>
      obtain ⟨steps, _, hDecisions, _, _⟩ := run.branch_counts hSelect true
      have hPowers := two_pow_add_two_pow_le (run.length_openVariables_branch hLeft hSelect true)
        (run.length_openVariables_branch hLeft hSelect false)
      simp only [Counters.addConflict] at ihLeft ihRight ⊢
      omega

end SearchRun

/-- A search stays within its limits. With one call for each open variable and one more, and as many
rounds in each call, the search that gives up beyond them ends as the search itself does; the limit
that is set leaves room for 999 other calls; and there are fewer decisions than rows in a truth
table of the open variables. -/
theorem search_within_limits (f : Formula) (a : Assignment) (s : Counters) (limit : Nat) :
    let n := (f.openVariables a).length
    f.searchWithin (n + 1) (n + 1) a s = some (f.search a s) ∧
      (n + 1) + 999 ≤ f.callLimit limit ∧
      (f.search a s).2.decisions ≤ s.decisions + (2 ^ n - 1) := by
  intro n
  have run := searchRun f a s
  have hDecisions : (f.search a s).2.decisions < s.decisions + 2 ^ n := run.decisions_lt
  have hVariables : n ≤ f.variableNames.length := length_openVariables_le_variableNames f a
  have hLimit : (n + 1) + 999 ≤ f.callLimit limit := by
    simp only [callLimit]
    split
    · omega
    · omega
  exact ⟨run.searchWithin_eq (Nat.lt_succ_self n) (Nat.lt_succ_self n), hLimit, by omega⟩

/-- Two nested calls are too few for the fork, which branches twice on the way to its model. -/
example : fork.searchWithin 6 2 forkStart .zero = none ∧
    fork.searchWithin 6 3 forkStart .zero = some (some forkModel, ⟨2, 2, 1⟩) := by
  decide +kernel

end Formula

end SatLab
