import Mathlib.Data.Set.Function
import SatLab.Proofs.Search.InsertionOrder

/-! Searching a formula under other names. No step of a search compares names but to look up their
values, so as long as different names stay different, every step of the one search is a step of the
other. -/

namespace SatLab

/-- New names for variables; none of them is empty. -/
abbrev Renaming := String → { name : String // name ≠ "" }

def Literal.rename (r : Renaming) (l : Literal) : Literal :=
  { name := r l.name, negated := l.negated, name_ne_empty := (r l.name).property }

def Clause.rename (r : Renaming) (c : Clause) : Clause := c.map (Literal.rename r)

def Formula.rename (r : Renaming) (f : Formula) : Formula := f.map (Clause.rename r)

/-- The same values under the new names. -/
def Assignment.rename (r : Renaming) (a : Assignment) : Assignment :=
  .ofList (a.toList.map fun entry => ((r entry.1).val, entry.2))

/-- Different names in a formula and in an assignment get different new names. -/
def Renaming.Separates (r : Renaming) (f : Formula) (a : Assignment) : Prop :=
  Set.InjOn r {name | name ∈ f.occurrences ∨ name ∈ a}

namespace Renaming.Separates

variable {r : Renaming} {f g : Formula} {a b : Assignment}

/-- A renaming that never gives one name twice keeps all names apart. -/
theorem of_injective (h : Function.Injective r) (f : Formula) (a : Assignment) :
    r.Separates f a := h.injOn

/-- Names kept apart in a formula are kept apart in what is left of it. -/
theorem mono (h : r.Separates f a) (hOccurs : ∀ name ∈ g.occurrences, name ∈ f.occurrences)
    (hNames : ∀ name ∈ b, name ∈ a ∨ name ∈ f.occurrences) : r.Separates g b := by
  apply Set.InjOn.mono _ h
  rintro name (hName | hName)
  · exact .inl (hOccurs name hName)
  · exact (hNames name hName).symm

theorem insert (h : r.Separates f a) {name : String} (hName : name ∈ f.occurrences) (value : Bool) :
    r.Separates f (a.insert name value) := by
  apply h.mono fun _ hOccurs => hOccurs
  intro other hOther
  rcases Assignment.mem_insert_entry.1 hOther with rfl | hOld
  · exact .inr hName
  · exact .inl hOld

theorem eq_of_rename_eq (h : r.Separates f a) {name other : String}
    (hName : name ∈ f.occurrences ∨ name ∈ a) (hOther : other ∈ a)
    (hSame : (r other).val = (r name).val) : other = name :=
  h (.inr hOther) hName (Subtype.ext hSame)

end Renaming.Separates

namespace Assignment

variable {r : Renaming} {f : Formula} {a : Assignment} {name : String}

theorem mem_of_mem_toList {entry : String × Bool} (h : entry ∈ a.toList) : entry.1 ∈ a :=
  mem_iff_exists_value.2 ⟨entry.2, Std.ExtTreeMap.mem_toList_iff_getElem?_eq_some.1 h⟩

/-- The entries of a renamed assignment are the renamed entries. -/
theorem getElem?_rename_eq_some_iff (h : r.Separates f a) {other : String} {value : Bool} :
    (a.rename r)[other]? = some value ↔ ∃ name, (r name).val = other ∧ a[name]? = some value := by
  have hDistinct : (a.toList.map fun entry => ((r entry.1).val, entry.2)).Pairwise
      (fun x y => ¬compare x.1 y.1 = .eq) := by
    rw [List.pairwise_map]
    apply Std.ExtTreeMap.distinct_keys_toList.imp_of_mem
    intro x y hx hy hDifferent hSame
    apply hDifferent
    rw [Std.LawfulEqCmp.compare_eq_iff_eq] at hSame ⊢
    exact h.eq_of_rename_eq (.inr (mem_of_mem_toList hy)) (mem_of_mem_toList hx) hSame
  have hFound : ∀ name x, a[name]? = some x → (a.rename r)[(r name).val]? = some x := by
    intro name x hEntry
    apply Std.ExtTreeMap.getElem?_ofList_of_mem Std.ReflCmp.compare_self hDistinct
    exact List.mem_map.2 ⟨(name, x), Std.ExtTreeMap.mem_toList_iff_getElem?_eq_some.2 hEntry, rfl⟩
  constructor
  · intro hEntry
    have hMem : other ∈ a.rename r := mem_iff_exists_value.2 ⟨value, hEntry⟩
    rw [rename, Std.ExtTreeMap.mem_ofList, List.map_map, List.contains_iff_mem,
      List.mem_map] at hMem
    obtain ⟨⟨name, x⟩, hOld, hName⟩ := hMem
    have hOld := Std.ExtTreeMap.mem_toList_iff_getElem?_eq_some.1 hOld
    have hSame := hFound name x hOld
    rw [show (r name).val = other from hName, hEntry] at hSame
    exact ⟨name, hName, hOld.trans hSame.symm⟩
  · rintro ⟨name, rfl, hEntry⟩
    exact hFound name value hEntry

/-- A new name has the value of the old one. -/
theorem getElem?_rename (h : r.Separates f a) (hName : name ∈ f.occurrences ∨ name ∈ a) :
    (a.rename r)[(r name).val]? = a[name]? := by
  apply Option.ext
  intro value
  rw [getElem?_rename_eq_some_iff h]
  constructor
  · rintro ⟨other, hSame, hEntry⟩
    have hOther : other ∈ a := mem_iff_exists_value.2 ⟨value, hEntry⟩
    rwa [← h.eq_of_rename_eq hName hOther hSame]
  · intro hEntry
    exact ⟨name, rfl, hEntry⟩

/-- Renaming an assignment with one more entry adds the renamed entry. -/
theorem rename_insert (h : r.Separates f a) (hName : name ∈ f.occurrences) (value : Bool) :
    Assignment.rename r (a.insert name value) = (a.rename r).insert (r name).val value := by
  have hInsert := h.insert hName value
  apply Std.ExtTreeMap.ext_getElem?
  intro other
  apply Option.ext
  intro x
  rw [getElem?_rename_eq_some_iff hInsert, getElem?_insert_entry]
  by_cases hSame : (r name).val = other
  · subst hSame
    rw [if_pos rfl, ← getElem?_rename_eq_some_iff hInsert, getElem?_rename hInsert (.inl hName),
      getElem?_insert_entry, if_pos rfl]
  · rw [if_neg hSame, getElem?_rename_eq_some_iff h]
    apply exists_congr
    intro old
    apply and_congr_right
    rintro rfl
    rw [getElem?_insert_entry, if_neg]
    rintro rfl
    exact hSame rfl

end Assignment

namespace Clause

variable {r : Renaming} {c : Clause} {a b : Assignment}
  (h : ∀ l ∈ c, (l.rename r).value? b = l.value? a)

include h

/-- Renaming clause and assignment keeps a clause satisfied or not. -/
theorem satisfiedBy_rename : satisfiedBy (c.rename r) b = satisfiedBy c a := by
  rw [Bool.eq_iff_iff, satisfiedBy_iff, satisfiedBy_iff]
  constructor
  · rintro ⟨k, hMem, hTrue⟩
    obtain ⟨l, hOld, rfl⟩ := List.mem_map.1 hMem
    exact ⟨l, hOld, (h l hOld).symm.trans hTrue⟩
  · rintro ⟨l, hMem, hTrue⟩
    exact ⟨l.rename r, List.mem_map_of_mem hMem, (h l hMem).trans hTrue⟩

/-- What is left of a renamed clause is the renamed rest. -/
theorem residual_rename : residual (c.rename r) b = (residual c a).rename r := by
  rw [residual, residual, rename, rename, List.filter_map]
  apply congrArg (List.map (Literal.rename r))
  apply List.filter_congr
  intro l hMem
  rw [Function.comp_apply, h l hMem]

end Clause

namespace Formula

variable {r : Renaming} {f g : Formula} {a b : Assignment}

theorem flatten_rename (r : Renaming) (f : Formula) :
    (f.rename r).flatten = f.flatten.map (Literal.rename r) :=
  List.map_flatten.symm

/-- Simplification commutes with a renaming that keeps the values of the literals. -/
theorem simplify_rename (h : ∀ l ∈ f.flatten, (l.rename r).value? b = l.value? a) :
    (f.rename r).simplify b = (f.simplify a).map (rename r) := by
  induction f with
  | nil => rfl
  | cons c f ih =>
      rw [List.flatten_cons, List.forall_mem_append] at h
      have hSatisfied := Clause.satisfiedBy_rename h.1
      have hResidual := Clause.residual_rename h.1
      have hCons : rename r (c :: f) = c.rename r :: rename r f := rfl
      have hEmpty : ((Clause.residual c a).rename r).isEmpty = (Clause.residual c a).isEmpty :=
        List.isEmpty_map
      rw [hCons, simplify, simplify, hSatisfied, hResidual, ih h.2]
      simp only [hEmpty]
      split
      · rfl
      · split
        · rfl
        · rw [Option.map_map, Option.map_map]
          rfl

/-- The first unit clause of a renamed formula is the renamed first one. -/
theorem firstUnit?_rename (r : Renaming) (f : Formula) :
    (f.rename r).firstUnit? = f.firstUnit?.map (Literal.rename r) := by
  rw [firstUnit?, firstUnit?, rename, List.findSome?_map, List.map_findSome?]
  congr 1
  funext c
  match c with
  | [] => rfl
  | [l] => rfl
  | l :: k :: c => rfl

/-- Renaming does not change which literal is selected. -/
theorem selectLiteral?_rename (h : ∀ l ∈ f.flatten, (l.rename r).isOpen b = l.isOpen a) :
    (f.rename r).selectLiteral? b = (f.selectLiteral? a).map (Literal.rename r) := by
  rw [selectLiteral?, selectLiteral?, flatten_rename, List.find?_map, ← List.head?_filter,
    ← List.head?_filter]
  apply congrArg fun left => Option.map (Literal.rename r) (List.head? left)
  exact List.filter_congr h

/-- What a propagation ends with, under the new names. -/
def Propagated.rename (r : Renaming) (reached : Propagated) : Propagated :=
  { reached with
    residual := reached.residual.map (Formula.rename r)
    assignment := reached.assignment.rename r }

end Formula

namespace Renaming.Separates

variable {r : Renaming} {f g : Formula} {a b : Assignment} (h : r.Separates f a)

include h

theorem value?_rename : ∀ l ∈ f.flatten, (l.rename r).value? (a.rename r) = l.value? a := by
  intro l hMem
  have hName : l.name ∈ f.occurrences := List.mem_map_of_mem hMem
  exact congrArg (Option.map (· == l.requiredValue)) (Assignment.getElem?_rename h (.inl hName))

theorem isOpen_rename : ∀ l ∈ f.flatten, (l.rename r).isOpen (a.rename r) = l.isOpen a := by
  intro l hMem
  rw [Bool.eq_iff_iff, Literal.isOpen_iff, Literal.isOpen_iff, ← Literal.value?_eq_none_iff,
    ← Literal.value?_eq_none_iff, h.value?_rename l hMem]

theorem residual (hSimplify : f.simplify b = some g) : r.Separates g a :=
  h.mono (fun _ => Formula.occurs_of_simplify hSimplify) fun _ => .inl

end Renaming.Separates

namespace Formula

variable {r : Renaming} {f g : Formula} {a : Assignment} {s : Counters}

/-- Every step of a propagation is one under the new names. -/
theorem PropagationRun.rename {reached : Propagated} (run : PropagationRun f a s reached)
    (h : r.Separates f a) :
    PropagationRun (f.rename r) (a.rename r) s (reached.rename r) := by
  induction run with
  | contradiction hSimplify =>
      apply PropagationRun.contradiction
      rw [simplify_rename h.value?_rename, hSimplify]
      rfl
  | @settled f g a s hSimplify hUnit =>
      apply PropagationRun.settled (g := g.rename r)
      · rw [simplify_rename h.value?_rename, hSimplify]
        rfl
      · rw [firstUnit?_rename, hUnit]
        rfl
  | @resolved f g a s l reached hSimplify hUnit rest ih =>
      have hLeft := h.residual hSimplify
      have hOccurs : l.name ∈ g.occurrences :=
        List.mem_map_of_mem (mem_flatten_of_firstUnit? hUnit)
      have hRest := ih (hLeft.insert hOccurs l.requiredValue)
      rw [Assignment.rename_insert hLeft hOccurs] at hRest
      refine PropagationRun.resolved (l := l.rename r) ?_ ?_ hRest
      · rw [simplify_rename h.value?_rename, hSimplify]
        rfl
      · rw [firstUnit?_rename, hUnit]
        rfl

/-- What a node of the search hands on is kept apart as well, and the same literal is selected. -/
theorem PropagationRun.separates_branch {reached : Propagated} {l : Literal}
    (run : PropagationRun f a s reached) (h : r.Separates f a)
    (hLeft : reached.residual = some g) (hSelect : g.selectLiteral? reached.assignment = some l) :
    (reached.rename r).residual = some (g.rename r) ∧
      (g.rename r).selectLiteral? (reached.rename r).assignment = some (l.rename r) ∧
      ∀ value, r.Separates g (reached.assignment.insert l.name value) ∧
        Assignment.rename r (reached.assignment.insert l.name value) =
          (reached.assignment.rename r).insert (l.rename r).name value := by
  have hReached : r.Separates f reached.assignment :=
    h.mono (fun _ hOccurs => hOccurs) fun _ hMem => run.mem_or_occurs hMem
  have hNode := hReached.residual (run.simplify_reached hLeft)
  have hOccurs : l.name ∈ g.occurrences := List.mem_map_of_mem (mem_of_selectLiteral? hSelect)
  refine ⟨?_, ?_, fun value => ⟨hNode.insert hOccurs value, ?_⟩⟩
  · rw [Propagated.rename, hLeft]
    rfl
  · rw [Propagated.rename, selectLiteral?_rename hNode.isOpen_rename, hSelect]
    rfl
  · exact Assignment.rename_insert hNode hOccurs value

/-- Every node of a search is one under the new names. -/
theorem SearchRun.rename {result : Option Assignment × Counters} (run : SearchRun f a s result)
    (h : r.Separates f a) :
    SearchRun (f.rename r) (a.rename r) s (result.1.map (Assignment.rename r), result.2) := by
  induction run with
  | contradiction run hLeft =>
      have hResidual := congrArg (Option.map (Formula.rename r)) hLeft
      have hNode := SearchRun.contradiction (run.rename h) hResidual
      exact hNode
  | solved run hLeft =>
      have hResidual := congrArg (Option.map (Formula.rename r)) hLeft
      have hNode := SearchRun.solved (run.rename h) hResidual
      exact hNode
  | onTrue run hLeft hSelect left ihLeft =>
      obtain ⟨hResidual, hLiteral, hBranch⟩ := run.separates_branch h hLeft hSelect
      have hTrue := ihLeft (hBranch true).1
      rw [(hBranch true).2] at hTrue
      exact .onTrue (run.rename h) hResidual hLiteral hTrue
  | onFalse run hLeft hSelect left right ihLeft ihRight =>
      obtain ⟨hResidual, hLiteral, hBranch⟩ := run.separates_branch h hLeft hSelect
      have hTrue := ihLeft (hBranch true).1
      have hFalse := ihRight (hBranch false).1
      rw [(hBranch true).2] at hTrue
      rw [(hBranch false).2] at hFalse
      exact .onFalse (run.rename h) hResidual hLiteral hTrue hFalse
  | failed run hLeft hSelect left right ihLeft ihRight =>
      obtain ⟨hResidual, hLiteral, hBranch⟩ := run.separates_branch h hLeft hSelect
      have hTrue := ihLeft (hBranch true).1
      have hFalse := ihRight (hBranch false).1
      rw [(hBranch true).2] at hTrue
      rw [(hBranch false).2] at hFalse
      exact .failed (run.rename h) hResidual hLiteral hTrue hFalse

/-- The search under other names finds the same model under these names and counts the same. -/
theorem search_rename (h : r.Separates f a) (s : Counters) :
    (f.rename r).search (a.rename r) s =
      ((f.search a s).1.map (Assignment.rename r), (f.search a s).2) :=
  ((searchRun f a s).rename h).eq_search

/-- The search does not look at names. Under other names it finds the same model and counts the
same, and it does so on any insertions that make the same assignment. -/
theorem search_nameless (f : Formula) (a : Assignment) (s : Counters) :
    (∀ r : Renaming, r.Separates f a →
      (f.rename r).search (a.rename r) s =
        ((f.search a s).1.map (Assignment.rename r), (f.search a s).2)) ∧
      ∀ made : Insertions, made.Make a → Finds (f.searchAfter made s) (f.search a s) :=
  ⟨fun _ h => search_rename h s, fun _ h => searchAfter_finds h s⟩

/-- New names for the variables of the fork, with the first and the last one exchanged. -/
def forkNames : Renaming := fun name => ⟨Equiv.swap "a" "z" name ++ "_", by simp⟩

/-- The fork with a value for `c`, which was inserted before the one for `z`. -/
def forkInsertions : Insertions := [("z", false), ("c", true)]

theorem search_nameless_fork :
    forkNames.Separates fork forkStart ∧
      (fork.rename forkNames).search (forkStart.rename forkNames) .zero =
        (some (forkModel.rename forkNames), ⟨2, 2, 1⟩) ∧
      forkInsertions.Make (forkStart.insert "c" true) ∧
      Finds (fork.searchAfter forkInsertions .zero)
        (fork.search (forkStart.insert "c" true) .zero) ∧
      (fork.searchAfter forkInsertions .zero).2 = ⟨1, 2, 0⟩ := by
  have hRun : fork.search forkStart .zero = (some forkModel, ⟨2, 2, 1⟩) := by decide +kernel
  have hCounters : (fork.search (forkStart.insert "c" true) .zero).2 = ⟨1, 2, 0⟩ := by
    decide +kernel
  have hSeparates : forkNames.Separates fork forkStart := by
    apply Renaming.Separates.of_injective
    intro name other hSame
    have hText := congrArg Subtype.val hSame
    exact (Equiv.swap "a" "z").injective (String.append_left_inj _ |>.1 hText)
  have hMake : forkInsertions.Make (forkStart.insert "c" true) := by
    have hSame : forkInsertions.assignment = forkStart.insert "c" true := by decide +kernel
    rw [← hSame]
    exact forkInsertions.make_assignment
  have hRenamed := (search_nameless fork forkStart .zero).1 forkNames hSeparates
  have hFinds := (search_nameless fork (forkStart.insert "c" true) .zero).2 forkInsertions hMake
  rw [hRun] at hRenamed
  exact ⟨hSeparates, hRenamed, hMake, hFinds, hFinds.2.trans hCounters⟩

end Formula

end SatLab
