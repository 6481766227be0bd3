import SatLab.Proofs.Search.Counting

/-! The safeguards of a search stay idle. They are the check of a unit clause against a value that
is already given and, at a node that is left open, the exits for an empty clause and for no literal
to select. The search is run with a log of its rounds and nodes, which tells how each of them
ended: none ended by a safeguard. -/

namespace SatLab

namespace Formula

/-- How a round of propagation ends. -/
inductive RoundEnd where
  | contradiction
  | settled
  /-- The unit clause wants the opposite of a value that is given. -/
  | opposed
  | resolved
deriving DecidableEq

/-- One round of propagation: what it simplifies, under which assignment, and how it ends. -/
structure Round where
  formula : Formula
  assignment : Assignment
  ending : RoundEnd
deriving DecidableEq

/-- Propagation with a log of its rounds. -/
def propagateLogged (f : Formula) (a : Assignment) (s : Counters) : Propagated × List Round :=
  match _ : f.simplify a with
  | none => ({ residual := none, assignment := a, counters := s }, [⟨f, a, .contradiction⟩])
  | some g =>
    match _ : g.firstUnit? with
    | none => ({ residual := some g, assignment := a, counters := s }, [⟨f, a, .settled⟩])
    | some l =>
      if a[l.name]? = some (!l.requiredValue) then
        ({ residual := none, assignment := a, counters := s }, [⟨f, a, .opposed⟩])
      else
        let (reached, rounds) :=
          propagateLogged g (a.insert l.name l.requiredValue) s.addPropagation
        (reached, ⟨f, a, .resolved⟩ :: rounds)
termination_by f.openOccurrences a
decreasing_by exact openOccurrences_lt_of_unit ‹_› ‹_›

/-- How a node of a search ends. -/
inductive NodeEnd where
  | contradiction
  | solved
  /-- Propagation has left an empty clause. -/
  | emptyClause
  /-- Propagation has left clauses, but no literal to branch on. -/
  | unselected
  /-- There is a model below this value of the selected variable. -/
  | found (value : Bool)
  /-- There is a model below neither of the two values. -/
  | exhausted
deriving DecidableEq

/-- One node of a search: what it is called on, and how it ends. -/
structure Node where
  formula : Formula
  assignment : Assignment
  counters : Counters
  ending : NodeEnd
deriving DecidableEq

/-- The search with a log of its nodes, each of them before the nodes below it. -/
def searchLogged (f : Formula) (a : Assignment) (s : Counters) :
    (Option Assignment × Counters) × List Node :=
  let reached := f.propagate a s
  match _ : reached.residual with
  | none => ((none, reached.counters.addConflict), [⟨f, a, s, .contradiction⟩])
  | some g =>
    if g.isEmpty then ((some reached.assignment, reached.counters), [⟨f, a, s, .solved⟩])
    else if g.any List.isEmpty then
      ((none, reached.counters.addConflict), [⟨f, a, s, .emptyClause⟩])
    else
      match _ : g.selectLiteral? reached.assignment with
      | none => ((none, reached.counters.addConflict), [⟨f, a, s, .unselected⟩])
      | some l =>
        match searchLogged g (reached.assignment.insert l.name true)
            reached.counters.addDecision with
        | ((some model, s'), onTrue) => ((some model, s'), ⟨f, a, s, .found true⟩ :: onTrue)
        | ((none, s'), onTrue) =>
          match searchLogged g (reached.assignment.insert l.name false) s' with
          | ((some model, s''), onFalse) =>
            ((some model, s''), ⟨f, a, s, .found false⟩ :: (onTrue ++ onFalse))
          | ((none, s''), onFalse) =>
            ((none, s''.addConflict), ⟨f, a, s, .exhausted⟩ :: (onTrue ++ onFalse))
termination_by f.openOccurrences a
decreasing_by all_goals exact openOccurrences_lt_of_selected ‹_› ‹_›

namespace Round

/-- A round without need for its safeguard: a unit clause that it finds is one of a variable
without a value. -/
structure Regular (r : Round) : Prop where
  unassigned : ∀ g l, r.formula.simplify r.assignment = some g → g.firstUnit? = some l →
    l.name ∉ r.assignment
  not_opposed : r.ending ≠ .opposed

/-- A round that does not end by its safeguard is regular. -/
theorem regular_of_ending {r : Round} (h : r.ending ≠ .opposed) : r.Regular where
  unassigned := fun _ _ => unit_unassigned
  not_opposed := h

end Round

/-- What the log of a propagation tells: its steps are those of the propagation, no round needs its
safeguard, and there is one round for each unit clause resolved and a last one. -/
structure PropagationLog (f : Formula) (a : Assignment) (s : Counters)
    (log : Propagated × List Round) : Prop where
  run : PropagationRun f a s log.1
  regular : ∀ r ∈ log.2, r.Regular
  propagations : log.1.counters.propagations + 1 = s.propagations + log.2.length

/-- The rounds logged are those of the propagation, one after the other. -/
theorem propagationLog (f : Formula) (a : Assignment) (s : Counters) :
    PropagationLog f a s (f.propagateLogged a s) := by
  fun_induction propagateLogged f a s with
  | case1 f a s hSimplify =>
      constructor
      · exact .contradiction hSimplify
      · exact List.forall_mem_singleton.2 (Round.regular_of_ending nofun)
      · rfl
  | case2 f a s g hSimplify hUnit =>
      constructor
      · exact .settled hSimplify hUnit
      · exact List.forall_mem_singleton.2 (Round.regular_of_ending nofun)
      · rfl
  | case3 f a s g hSimplify l hUnit hOpposite =>
      exact (unit_not_refused hSimplify hUnit hOpposite).elim
  | case4 f a s g hSimplify l hUnit hFree reached rounds hRest ih =>
      rw [hRest] at ih
      constructor
      · exact .resolved hSimplify hUnit ih.run
      · exact List.forall_mem_cons.2 ⟨Round.regular_of_ending nofun, ih.regular⟩
      · have hCount := ih.propagations
        simp only [Counters.addPropagation] at hCount
        rw [List.length_cons]
        dsimp only
        omega

namespace Node

/-- What propagation reaches at a node. -/
def reached (n : Node) : Propagated := n.formula.propagate n.assignment n.counters

/-- The rounds of propagation at a node. -/
def rounds (n : Node) : List Round := (n.formula.propagateLogged n.assignment n.counters).2

/-- A node that tries the values of a variable. -/
def branches (n : Node) : Bool :=
  match n.ending with
  | .found _ => true
  | .exhausted => true
  | _ => false

/-- A node without a model that ends by none of its safeguards. -/
def failed (n : Node) : Bool :=
  match n.ending with
  | .contradiction => true
  | .exhausted => true
  | _ => false

/-- A node without need for its safeguards. Propagation leaves no empty clause there, and if it
leaves a clause, the literal to branch on is the first one of the first clause. -/
structure Regular (n : Node) : Prop where
  rounds : ∀ r ∈ n.rounds, r.Regular
  nil_not_mem : ∀ g, n.reached.residual = some g → [] ∉ g
  selects_first : ∀ g, n.reached.residual = some g → g ≠ [] →
    ∃ l c rest, g = (l :: c) :: rest ∧ g.selectLiteral? n.reached.assignment = some l
  not_emptyClause : n.ending ≠ .emptyClause
  not_unselected : n.ending ≠ .unselected

/-- A node that does not end by a safeguard is regular. -/
theorem regular_of_ending {n : Node} (hClause : n.ending ≠ .emptyClause)
    (hLiteral : n.ending ≠ .unselected) : n.Regular := by
  have run : PropagationRun n.formula n.assignment n.counters n.reached := propagationRun _ _ _
  constructor
  · exact (propagationLog _ _ _).regular
  · exact fun g hLeft => nil_not_mem_of_simplify (run.simplify_reached hLeft)
  · exact fun g hLeft hOpen => selected_of_simplify (run.simplify_reached hLeft) hOpen
  · exact hClause
  · exact hLiteral

end Node

/-- What the log of a search tells: its nodes are those of the search, none of them needs its
safeguards, and the counters count the nodes that branch and the ones that fail. -/
structure SearchLog (f : Formula) (a : Assignment) (s : Counters)
    (log : (Option Assignment × Counters) × List Node) : Prop where
  run : SearchRun f a s log.1
  regular : ∀ n ∈ log.2, n.Regular
  decisions : log.1.2.decisions = s.decisions + log.2.countP (·.branches)
  conflicts : log.1.2.conflicts = s.conflicts + log.2.countP (·.failed)

/-- The nodes logged are those of the search, in the order they are visited. -/
theorem searchLog (f : Formula) (a : Assignment) (s : Counters) :
    SearchLog f a s (f.searchLogged a s) := by
  fun_induction searchLogged f a s with
  | case1 f a s reached hLeft =>
      have run : PropagationRun f a s reached := propagationRun f a s
      obtain ⟨steps, _, hDecisions, _, hConflicts⟩ := run.counts
      constructor
      · exact .contradiction run hLeft
      · exact List.forall_mem_singleton.2 (Node.regular_of_ending nofun nofun)
      · exact hDecisions
      · exact congrArg (· + 1) hConflicts
  | case2 f a s reached g hLeft hEmpty =>
      have run : PropagationRun f a s reached := propagationRun f a s
      obtain ⟨steps, _, hDecisions, _, hConflicts⟩ := run.counts
      rw [List.isEmpty_iff] at hEmpty
      subst hEmpty
      constructor
      · exact .solved run hLeft
      · exact List.forall_mem_singleton.2 (Node.regular_of_ending nofun nofun)
      · exact hDecisions
      · exact hConflicts
  | case3 f a s reached g hLeft hOpen hNil =>
      exact ((propagationRun f a s).not_any_isEmpty hLeft hNil).elim
  | case4 f a s reached g hLeft hOpen hNoNil hSelect =>
      exact ((propagationRun f a s).selectLiteral?_ne_none hLeft hOpen hSelect).elim
  | case5 f a s reached g hLeft hOpen hNoNil l hSelect model s' onTrue hTrue ihTrue =>
      have run : PropagationRun f a s reached := propagationRun f a s
      obtain ⟨steps, _, hDecisions, _, hConflicts⟩ := run.branch_counts hSelect true
      rw [hTrue] at ihTrue
      constructor
      · exact .onTrue run hLeft hSelect ihTrue.run
      · exact List.forall_mem_cons.2 ⟨Node.regular_of_ending nofun nofun, ihTrue.regular⟩
      · have hCount := ihTrue.decisions
        rw [List.countP_cons_of_pos rfl]
        dsimp only at hCount ⊢
        omega
      · have hCount := ihTrue.conflicts
        rw [List.countP_cons_of_neg (by simp [Node.failed])]
        dsimp only at hCount ⊢
        omega
  | case6 f a s reached g hLeft hOpen hNoNil l hSelect s' onTrue hTrue model s'' onFalse hFalse
      ihTrue ihFalse =>
      have run : PropagationRun f a s reached := propagationRun f a s
      obtain ⟨steps, _, hDecisions, _, hConflicts⟩ := run.branch_counts hSelect true
      rw [hTrue] at ihTrue
      rw [hFalse] at ihFalse
      have hBelow := List.forall_mem_append.2 ⟨ihTrue.regular, ihFalse.regular⟩
      constructor
      · exact .onFalse run hLeft hSelect ihTrue.run ihFalse.run
      · exact List.forall_mem_cons.2 ⟨Node.regular_of_ending nofun nofun, hBelow⟩
      · have hCounts := And.intro ihTrue.decisions ihFalse.decisions
        rw [List.countP_cons_of_pos rfl, List.countP_append]
        dsimp only at hCounts ⊢
        omega
      · have hCounts := And.intro ihTrue.conflicts ihFalse.conflicts
        rw [List.countP_cons_of_neg (by simp [Node.failed]), List.countP_append]
        dsimp only at hCounts ⊢
        omega
  | case7 f a s reached g hLeft hOpen hNoNil l hSelect s' onTrue hTrue s'' onFalse hFalse
      ihTrue ihFalse =>
      have run : PropagationRun f a s reached := propagationRun f a s
      obtain ⟨steps, _, hDecisions, _, hConflicts⟩ := run.branch_counts hSelect true
      rw [hTrue] at ihTrue
      rw [hFalse] at ihFalse
      have hBelow := List.forall_mem_append.2 ⟨ihTrue.regular, ihFalse.regular⟩
      constructor
      · exact .failed run hLeft hSelect ihTrue.run ihFalse.run
      · exact List.forall_mem_cons.2 ⟨Node.regular_of_ending nofun nofun, hBelow⟩
      · have hCounts := And.intro ihTrue.decisions ihFalse.decisions
        rw [List.countP_cons_of_pos rfl, List.countP_append]
        simp only [Counters.addConflict] at hCounts ⊢
        omega
      · have hCounts := And.intro ihTrue.conflicts ihFalse.conflicts
        rw [List.countP_cons_of_pos rfl, List.countP_append]
        simp only [Counters.addConflict] at hCounts ⊢
        omega

/-- The safeguards stay idle. With a log, propagation and search do what they do without it. In
every round of a propagation, the unit clause that is found is one of a variable without a value. At
every node of a search that propagation leaves open, no clause is empty and the literal selected is
the first one of the first clause. So no round and no node ends by a safeguard, and what is counted
as a conflict is a contradiction or the failure of both values. -/
theorem search_safeguards_idle (f : Formula) (a : Assignment) (s : Counters) :
    let rounds := (f.propagateLogged a s).2
    let nodes := (f.searchLogged a s).2
    (f.propagateLogged a s).1 = f.propagate a s ∧ (∀ r ∈ rounds, r.Regular) ∧
      (f.propagate a s).counters.propagations + 1 = s.propagations + rounds.length ∧
      (f.searchLogged a s).1 = f.search a s ∧ (∀ n ∈ nodes, n.Regular) ∧
      (f.search a s).2.decisions = s.decisions + nodes.countP (·.branches) ∧
      (f.search a s).2.conflicts = s.conflicts + nodes.countP (·.failed) := by
  intro rounds nodes
  have ofRounds := propagationLog f a s
  have ofNodes := searchLog f a s
  have hPropagate : f.propagate a s = (f.propagateLogged a s).1 := ofRounds.run.eq_propagate
  have hSearch : f.search a s = (f.searchLogged a s).1 := ofNodes.run.eq_search
  rw [hPropagate, hSearch]
  exact ⟨rfl, ofRounds.regular, ofRounds.propagations, rfl, ofNodes.regular, ofNodes.decisions,
    ofNodes.conflicts⟩

/-- Below the second value of `a` there is a unit clause for `b`, and the clause that is left then
has its first literal selected. -/
theorem search_safeguards_idle_fork :
    let a := forkStart.insert "a" false
    let r : Round := ⟨fork, a, .resolved⟩
    let n : Node := ⟨fork, a, ⟨1, 1, 1⟩, .found true⟩
    let d : Literal := ⟨"d", false, by decide⟩
    let left : Formula := [[d, ⟨"e", false, by decide⟩]]
    r ∈ (fork.propagateLogged a .zero).2 ∧ r.Regular ∧
      n ∈ (fork.searchLogged forkStart .zero).2 ∧ n.Regular ∧
      n.reached.residual = some left ∧ left.selectLiteral? n.reached.assignment = some d := by
  intro a r n d left
  have hRound : r ∈ (fork.propagateLogged a .zero).2 := by decide +kernel
  have hNode : n ∈ (fork.searchLogged forkStart .zero).2 := by decide +kernel
  have hLeft : n.reached.residual = some left := by decide +kernel
  obtain ⟨_, hRounds, _⟩ := search_safeguards_idle fork a .zero
  obtain ⟨_, _, _, _, hNodes, _⟩ := search_safeguards_idle fork forkStart .zero
  obtain ⟨l, c, rest, hFirst, hSelect⟩ := (hNodes n hNode).selects_first left hLeft nofun
  rw [List.cons.injEq, List.cons.injEq] at hFirst
  rw [← hFirst.1.1] at hSelect
  exact ⟨hRound, hRounds r hRound, hNode, hNodes n hNode, hLeft, hSelect⟩

end Formula

end SatLab
