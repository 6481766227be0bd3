import SatLab.Formula.Satisfaction

/-! Truth under partial valuations. Assignments and total valuations are two readings of one
notion, so a fact about truth that both need is proved once. -/

namespace SatLab

/-- Values of names, some of them missing. -/
abbrev PartialValuation := String → Option Bool

/-- A total valuation misses no value. -/
def Valuation.values (v : Valuation) : PartialValuation := fun name => some (v name)

namespace Assignment

def values (a : Assignment) : PartialValuation := fun name => a[name]?

/-- Every entry of the assignment is a value of the valuation. -/
def Within (a : Assignment) (p : PartialValuation) : Prop :=
  ∀ (name : String) (value : Bool), a[name]? = some value → p name = some value

theorem agrees_iff_within {a : Assignment} {v : Valuation} :
    Agrees v a ↔ a.Within (Valuation.values v) := by
  constructor
  · intro h name value hEntry
    exact congrArg some (h name value hEntry)
  · intro h name value hEntry
    exact Option.some.inj (h name value hEntry)

theorem Extends.refl (a : Assignment) : a.Extends a := fun _ _ h => h

theorem Extends.trans {a b c : Assignment} (hcb : c.Extends b) (hba : b.Extends a) :
    c.Extends a := fun name value h => hcb name value (hba name value h)

theorem within_values (a : Assignment) : a.Within a.values := fun _ _ h => h

theorem Extends.within {a b : Assignment} {p : PartialValuation} (h : b.Extends a)
    (hb : b.Within p) : a.Within p := fun name value hEntry => hb name value (h name value hEntry)

/-- A name is assigned exactly when it has a value. -/
theorem mem_iff_exists_value {a : Assignment} {name : String} :
    name ∈ a ↔ ∃ value, a[name]? = some value := by
  rw [Std.ExtTreeMap.mem_iff_isSome_getElem?, Option.isSome_iff_exists]

theorem Extends.mem {a b : Assignment} (h : b.Extends a) {name : String} (hMem : name ∈ a) :
    name ∈ b := by
  obtain ⟨value, hValue⟩ := mem_iff_exists_value.1 hMem
  exact mem_iff_exists_value.2 ⟨value, h name value hValue⟩

theorem getElem?_insert_entry (a : Assignment) (name other : String) (value : Bool) :
    (a.insert name value)[other]? = if name = other then some value else a[other]? := by
  simp [Std.ExtTreeMap.getElem?_insert]

theorem mem_insert_entry {a : Assignment} {name other : String} {value : Bool} :
    other ∈ a.insert name value ↔ name = other ∨ other ∈ a := by
  simp [Std.ExtTreeMap.mem_insert]

/-- A new name changes no value. -/
theorem extends_insert {a : Assignment} {name : String} (hNew : name ∉ a) (value : Bool) :
    Extends (a.insert name value) a := by
  intro other old hOld
  rw [getElem?_insert_entry, if_neg]
  · exact hOld
  · rintro rfl
    exact hNew (mem_iff_exists_value.2 ⟨old, hOld⟩)

/-- A new entry that agrees with a partial valuation keeps the assignment within it. -/
theorem Within.insert {a : Assignment} {p : PartialValuation} {name : String} {value : Bool}
    (h : a.Within p) (hValue : p name = some value) : Within (a.insert name value) p := by
  intro other found hFound
  rw [getElem?_insert_entry] at hFound
  split at hFound
  · next hEq =>
      rw [← hEq, hValue, hFound]
  · exact h other found hFound

/-- The entries of `a`, and those of `b` whose names `a` lacks. -/
theorem getElem?_union_entry (a b : Assignment) (name : String) :
    (b ∪ a)[name]? = a[name]?.or b[name]? :=
  Std.ExtTreeMap.getElem?_union

/-- Adding what is already there changes nothing. -/
theorem union_eq_of_extends {a b : Assignment} (h : b.Extends a) : b ∪ a = b := by
  apply Std.ExtTreeMap.ext_getElem?
  intro name
  rw [getElem?_union_entry]
  cases hEntry : a[name]? with
  | none => rfl
  | some value => exact (h name value hEntry).symm

/-- No name has different values in the two assignments. -/
def Compatible (a b : Assignment) : Prop :=
  ∀ (name : String) (x y : Bool), a[name]? = some x → b[name]? = some y → x = y

/-- Assignments that contradict each other nowhere are joined in any order. -/
theorem Compatible.union_comm {a b : Assignment} (h : a.Compatible b) : b ∪ a = a ∪ b := by
  apply Std.ExtTreeMap.ext_getElem?
  intro name
  rw [getElem?_union_entry, getElem?_union_entry]
  cases ha : a[name]? with
  | none => rw [Option.none_or, Option.or_none]
  | some x =>
      cases hb : b[name]? with
      | none => rfl
      | some y => exact congrArg some (h name x y ha hb)

theorem insert_union_entry (a b : Assignment) (name : String) (value : Bool) :
    a ∪ b.insert name value = (a ∪ b).insert name value := by
  apply Std.ExtTreeMap.ext_getElem?
  intro other
  rw [getElem?_union_entry, getElem?_insert_entry, getElem?_insert_entry, getElem?_union_entry]
  split
  · rfl
  · rfl

theorem union_empty_entries (a : Assignment) : a ∪ (∅ : Assignment) = a := by
  apply Std.ExtTreeMap.ext_getElem?
  intro name
  rw [getElem?_union_entry, Std.ExtTreeMap.getElem?_empty, Option.none_or]

/-- Every valuation agrees with the empty assignment. -/
theorem agrees_empty (v : Valuation) : Agrees v ∅ := by
  intro name value hEntry
  rw [Std.ExtTreeMap.getElem?_empty] at hEntry
  cases hEntry

/-- Some valuation gives every name the value it has in the assignment. -/
theorem exists_agrees (a : Assignment) : ∃ v, Agrees v a := by
  refine ⟨fun name => a[name]?.getD true, ?_⟩
  intro name value hEntry
  simp only [hEntry, Option.getD_some]

end Assignment

namespace Literal

/-- The variable of the literal has the value that makes it true. -/
def TrueUnder (l : Literal) (p : PartialValuation) : Prop := p l.name = some l.requiredValue

theorem value?_eq_some_true_iff {l : Literal} {a : Assignment} :
    l.value? a = some true ↔ l.TrueUnder a.values := by
  simp [value?, TrueUnder, Assignment.values]

theorem holds_iff_trueUnder {l : Literal} {v : Valuation} :
    l.holds v = true ↔ l.TrueUnder (Valuation.values v) := by
  simp [holds, TrueUnder, Valuation.values]

end Literal

namespace Clause

def TrueUnder (c : Clause) (p : PartialValuation) : Prop := ∃ l ∈ c, l.TrueUnder p

theorem satisfiedBy_iff_trueUnder {c : Clause} {a : Assignment} :
    satisfiedBy c a = true ↔ TrueUnder c a.values := by
  simp only [satisfiedBy_iff, TrueUnder, Literal.value?_eq_some_true_iff]

/-- Nothing makes the empty clause true. -/
theorem not_trueUnder_nil {p : PartialValuation} : ¬TrueUnder [] p := by
  rintro ⟨l, hMem, _⟩
  cases hMem

/-- A clause true under an assignment is true under everything the assignment is within. -/
theorem TrueUnder.mono {c : Clause} {a : Assignment} {p : PartialValuation}
    (h : TrueUnder c a.values) (hp : a.Within p) : TrueUnder c p := by
  obtain ⟨l, hMem, hTrue⟩ := h
  exact ⟨l, hMem, hp l.name l.requiredValue hTrue⟩

end Clause

namespace Formula

def TrueUnder (f : Formula) (p : PartialValuation) : Prop := ∀ c ∈ f, Clause.TrueUnder c p

/-- Evaluating a formula under an assignment is its truth under the assignment's values. -/
theorem satisfiedBy_iff_trueUnder {f : Formula} {a : Assignment} :
    f.satisfiedBy a = true ↔ f.TrueUnder a.values := by
  simp only [satisfiedBy_iff, TrueUnder, Clause.satisfiedBy_iff_trueUnder]

/-- The truth of a formula under a valuation is its truth under a partial valuation that leaves
nothing out. -/
theorem holds_iff_trueUnder {f : Formula} {v : Valuation} :
    f.holds v = true ↔ f.TrueUnder (Valuation.values v) := by
  simp only [holds_iff, TrueUnder, Clause.holds_iff, Clause.TrueUnder, Literal.holds_iff_trueUnder]

/-- What an assignment makes true stays true when values are added. -/
theorem TrueUnder.mono {f : Formula} {a : Assignment} {p : PartialValuation}
    (h : f.TrueUnder a.values) (hp : a.Within p) : f.TrueUnder p :=
  fun c hMem => (h c hMem).mono hp

/-- A formula with an empty clause is never true. -/
theorem not_trueUnder_of_nil_mem {f : Formula} {p : PartialValuation} (h : [] ∈ f) :
    ¬f.TrueUnder p := fun hTrue => Clause.not_trueUnder_nil (hTrue [] h)

theorem trueUnder_cons {c : Clause} {f : Formula} {p : PartialValuation} :
    TrueUnder (c :: f) p ↔ Clause.TrueUnder c p ∧ f.TrueUnder p :=
  List.forall_mem_cons

end Formula

end SatLab
