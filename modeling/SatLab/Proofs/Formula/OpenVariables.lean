import Mathlib.Data.List.Perm.Subperm
import SatLab.Proofs.Formula.Residual

/-! The variables that an assignment leaves open, each of them once. Their number falls with every
new value of a variable that occurs. -/

namespace SatLab

namespace Formula

theorem nodup_eraseDups (names : List String) : names.eraseDups.Nodup :=
  match names with
  | [] => List.nodup_nil
  | name :: rest => by
      rw [List.eraseDups_cons, List.nodup_cons]
      constructor
      · simp
      · exact nodup_eraseDups _
termination_by names.length
decreasing_by
  rw [List.length_cons, Nat.lt_succ_iff]
  exact List.length_filter_le _ _

/-- The variables without a value, in the order of their first occurrence. -/
def openVariables (f : Formula) (a : Assignment) : List String :=
  f.variableNames.filter fun name => !a.contains name

variable {f g : Formula} {a b : Assignment} {name : String}

/-- The open variables are those of the formula that the assignment leaves out. -/
theorem mem_openVariables : name ∈ f.openVariables a ↔ name ∈ f.occurrences ∧ name ∉ a := by
  rw [openVariables, List.mem_filter, variableNames, List.mem_eraseDups, Bool.not_eq_true',
    ← Bool.not_eq_true, Std.ExtTreeMap.contains_iff_mem]

/-- Each open variable is listed once. -/
theorem nodup_openVariables (f : Formula) (a : Assignment) : (f.openVariables a).Nodup :=
  (nodup_eraseDups f.occurrences).filter _

theorem length_openVariables_le_variableNames (f : Formula) (a : Assignment) :
    (f.openVariables a).length ≤ f.variableNames.length :=
  List.length_filter_le _ _

/-- Fewer variables and more values leave no more open. -/
theorem openVariables_subset (hOccurs : ∀ name ∈ g.occurrences, name ∈ f.occurrences)
    (hNames : ∀ name ∈ a, name ∈ b) : g.openVariables b ⊆ f.openVariables a := by
  intro name hMem
  obtain ⟨hName, hOpen⟩ := mem_openVariables.1 hMem
  exact mem_openVariables.2 ⟨hOccurs name hName, fun hOld => hOpen (hNames name hOld)⟩

/-- A new value of a variable that occurs leaves fewer open. -/
theorem length_openVariables_lt (name : String)
    (hOccurs : ∀ name ∈ g.occurrences, name ∈ f.occurrences) (hNames : ∀ name ∈ a, name ∈ b)
    (hName : name ∈ f.occurrences) (hOpen : name ∉ a) (hAssigned : name ∈ b) :
    (g.openVariables b).length < (f.openVariables a).length := by
  have hNew : name ∉ g.openVariables b := fun hMem => (mem_openVariables.1 hMem).2 hAssigned
  have hNodup : (name :: g.openVariables b).Nodup :=
    List.nodup_cons.2 ⟨hNew, nodup_openVariables g b⟩
  have hSubset : name :: g.openVariables b ⊆ f.openVariables a := by
    rw [List.cons_subset]
    exact ⟨mem_openVariables.2 ⟨hName, hOpen⟩, openVariables_subset hOccurs hNames⟩
  exact (List.Nodup.subperm hNodup hSubset).length_le

end Formula

end SatLab
