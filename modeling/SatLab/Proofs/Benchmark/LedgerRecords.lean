import SatLab.Proofs.Benchmark.Standing

/-! The ledger as a map from solvers and folders to records: what is put in is found again, all
other records stay, and the rows of the record that was there make way for those of the new one. -/

namespace SatLab

namespace Document

section Fields

variable {α β : Type} {fields : List (String × α)} {name : String} {value : α}

/-- Putting a field keeps the order of the names, and a new name comes last. -/
theorem map_fst_putField (fields : List (String × α)) (name : String) (value : α) :
    (putField fields name value).map Prod.fst =
      if name ∈ fields.map Prod.fst then fields.map Prod.fst
      else fields.map Prod.fst ++ [name] := by
  induction fields with
  | nil => rfl
  | cons field fields ih =>
      obtain ⟨key, old⟩ := field
      by_cases hKey : key = name
      · simp [putField, hKey]
      · have hOther : name ≠ key := Ne.symm hKey
        simp only [putField, if_neg hKey, List.map_cons, ih, List.mem_cons, hOther, false_or]
        split <;> rfl

/-- Putting a field never makes two fields of one name. -/
theorem nodup_putField (h : (fields.map Prod.fst).Nodup) (name : String) (value : α) :
    ((putField fields name value).map Prod.fst).Nodup := by
  rw [map_fst_putField]
  split
  · exact h
  · next hNew =>
      rw [← List.concat_eq_append]
      exact h.concat hNew

/-- After a field is put, every field is the new one or was there before. -/
theorem mem_putField {field : String × α} (h : field ∈ putField fields name value) :
    field = (name, value) ∨ field ∈ fields := by
  induction fields with
  | nil => exact .inl (List.mem_singleton.1 h)
  | cons first fields ih =>
      rw [putField] at h
      split at h
      · next hKey =>
          rw [hKey] at h
          exact (List.mem_cons.1 h).imp_right (List.mem_cons_of_mem _)
      · rcases List.mem_cons.1 h with rfl | hMem
        · exact .inr List.mem_cons_self
        · exact (ih hMem).imp_right (List.mem_cons_of_mem _)

/-- The later of two values put under one name is the one that counts. -/
theorem putField_putField (fields : List (String × α)) (name : String) (old value : α) :
    putField (putField fields name old) name value = putField fields name value := by
  induction fields with
  | nil => simp [putField]
  | cons field fields ih =>
      by_cases hKey : field.1 = name
      · simp [putField, hKey]
      · simp [putField, hKey, ih]

/-- A value found under a name is a field of the record. -/
theorem mem_of_lookup (h : fields.lookup name = some value) : (name, value) ∈ fields := by
  obtain ⟨before, after, rfl, -⟩ := List.lookup_eq_some_iff.1 h
  exact List.mem_append_right _ List.mem_cons_self

/-- Where names are distinct, every field is found under its name. -/
theorem lookup_of_mem (hNodup : (fields.map Prod.fst).Nodup) (h : (name, value) ∈ fields) :
    fields.lookup name = some value := by
  obtain ⟨before, after, rfl⟩ := List.append_of_mem h
  have hBefore : name ∉ before.map Prod.fst := by
    rw [List.map_append, List.nodup_append] at hNodup
    exact fun hMem => hNodup.2.2 _ hMem _ List.mem_cons_self rfl
  rw [lookup_append hBefore, List.lookup_cons, BEq.rfl]

/-- What hangs on the old value makes way for what hangs on the new one. -/
theorem perm_flatMap_putField [DecidableEq β] (of : α → List β) (fields : List (String × α))
    (name : String) (value : α) :
    ((putField fields name value).flatMap (fun field => of field.2) ++
      ((fields.lookup name).map of).getD []).Perm
        (fields.flatMap (fun field => of field.2) ++ of value) := by
  rw [List.perm_iff_count]
  intro x
  induction fields with
  | nil => simp [putField]
  | cons field fields ih =>
      obtain ⟨key, old⟩ := field
      simp only [List.count_append] at ih
      by_cases hKey : key = name
      · simp [putField, hKey]
        omega
      · have hOther : (name == key) = false := beq_false_of_ne (Ne.symm hKey)
        simp only [putField, if_neg hKey, List.flatMap_cons, List.lookup_cons, hOther,
          List.count_append]
        omega

end Fields

end Document

namespace Benchmark

namespace Ledger

variable {l l' : Ledger} {label folder : String} {s : FolderStatistics}

/-- The record of a solver on a folder. -/
def record? (l : Ledger) (label folder : String) : Option FolderStatistics :=
  (l.lookup label).bind (·.lookup folder)

/-- The records of a solver. -/
def recordsOf (l : Ledger) (label : String) : List (String × FolderStatistics) :=
  (l.lookup label).getD []

/-- The ledger with a record in its place. -/
def put (l : Ledger) (label folder : String) (s : FolderStatistics) : Ledger :=
  Document.putField l label (Document.putField (l.recordsOf label) folder s)

/-- The ledger with a place for a solver. -/
def withSolver (l : Ledger) (label : String) : Ledger :=
  match l.lookup label with
  | some _ => l
  | none => l ++ [(label, [])]

/-- All records are of a kind. -/
def All (P : String → String → FolderStatistics → Prop) (l : Ledger) : Prop :=
  ∀ label folder s, l.record? label folder = some s → P label folder s

/-- Looking a folder up among a solver's records is looking it up in the ledger. -/
theorem lookup_recordsOf (l : Ledger) (label folder : String) :
    (l.recordsOf label).lookup folder = l.record? label folder := by
  rw [recordsOf, record?]
  cases l.lookup label <;> rfl

/-! ### The ledger and the statistics -/

/-- A solver's entry in the statistics holds exactly the folders the ledger has for it. -/
theorem lookup_solver (l : Ledger) (label : String) :
    l.entries.lookup label = (l.lookup label).map folders :=
  Document.lookup_map folders l label

/-- Under each pair of keys the statistics of a ledger give back the record the ledger has. -/
theorem folder?_statistics (l : Ledger) (label folder : String) :
    l.statistics.folder? label folder = .ok ((l.record? label folder).map .recorded) := by
  rw [statistics, Statistics.folder?, Statistics.entries]
  simp only [bind, Except.bind, lookup_solver, record?]
  cases l.lookup label with
  | none => rfl
  | some records =>
      exact congrArg Except.ok (Document.lookup_map FolderRecord.recorded records folder)

/-- Putting a record into the statistics is putting it into the ledger. -/
theorem putFolder_statistics (l : Ledger) (label folder : String) (s : FolderStatistics) :
    l.statistics.putFolder label folder (.recorded s) = (l.put label folder s).statistics := by
  have hPut : ∀ records : List (String × FolderStatistics),
      Statistics.solvers (Document.putField l.entries label (.folders (Document.putField
        (records.map fun record => (record.1, .recorded record.2)) folder (.recorded s)))) =
          statistics (Document.putField l label (Document.putField records folder s)) := by
    intro records
    rw [Document.putField_map FolderRecord.recorded, ← folders, entries,
      Document.putField_map folders, statistics, entries]
  rw [statistics, Statistics.putFolder, put, recordsOf]
  simp only [lookup_solver]
  cases l.lookup label with
  | none => exact hPut []
  | some records => exact hPut records

/-- Making room for a solver in the statistics is making room for it in the ledger. -/
theorem withSolver_statistics (l : Ledger) (label : String) :
    l.statistics.withSolver label = .ok (l.withSolver label).statistics := by
  rw [statistics, Statistics.withSolver, Statistics.entries, withSolver]
  simp only [bind, Except.bind, lookup_solver]
  cases l.lookup label with
  | some records => rfl
  | none =>
      rw [statistics, entries_append]
      rfl

/-! ### What is found -/

/-- The records of a solver after one of its folders is put. -/
theorem recordsOf_put_self (l : Ledger) (label folder : String) (s : FolderStatistics) :
    (l.put label folder s).recordsOf label = Document.putField (l.recordsOf label) folder s := by
  rw [recordsOf, put, Document.lookup_putField_self, Option.getD_some]

/-- Putting a record leaves every other solver's records alone. -/
theorem recordsOf_put_of_ne {other : String} (h : other ≠ label) (l : Ledger) (folder : String)
    (s : FolderStatistics) : (l.put label folder s).recordsOf other = l.recordsOf other := by
  rw [recordsOf, put, Document.lookup_putField_of_ne _ _ h, ← recordsOf]

/-- The record put is the one found under its keys. -/
theorem record?_put_self (l : Ledger) (label folder : String) (s : FolderStatistics) :
    (l.put label folder s).record? label folder = some s := by
  rw [← lookup_recordsOf, recordsOf_put_self, Document.lookup_putField_self]

/-- Every other pair of keys keeps its record. -/
theorem record?_put_of_ne {label' folder' : String} (h : ¬(label' = label ∧ folder' = folder))
    (l : Ledger) (s : FolderStatistics) :
    (l.put label folder s).record? label' folder' = l.record? label' folder' := by
  rw [← lookup_recordsOf, ← lookup_recordsOf]
  by_cases hLabel : label' = label
  · subst hLabel
    rw [recordsOf_put_self, Document.lookup_putField_of_ne _ _ fun hFolder => h ⟨rfl, hFolder⟩]
  · rw [recordsOf_put_of_ne hLabel]

/-- Putting a record twice under the same keys keeps the later one. -/
theorem put_put (l : Ledger) (label folder : String) (old s : FolderStatistics) :
    (l.put label folder old).put label folder s = l.put label folder s := by
  rw [put, recordsOf_put_self, Document.putField_putField, put, Document.putField_putField, put]

/-- Making room for a solver changes no record. -/
theorem record?_withSolver (l : Ledger) (label label' folder : String) :
    (l.withSolver label).record? label' folder = l.record? label' folder := by
  rw [withSolver]
  cases hLookup : l.lookup label with
  | some records => rfl
  | none =>
      rw [record?, record?, List.lookup_append]
      cases hOther : l.lookup label' with
      | some records => rfl
      | none =>
          rw [Option.none_or, List.lookup_cons, List.lookup_nil]
          cases label' == label <;> rfl

theorem all_nil (P : String → String → FolderStatistics → Prop) : All P [] := by
  intro label folder s hs
  cases hs

theorem All.imp {P Q : String → String → FolderStatistics → Prop} (h : l.All P)
    (hImp : ∀ label folder s, P label folder s → Q label folder s) : l.All Q :=
  fun label folder s hs => hImp label folder s (h label folder s hs)

/-- A property of all records survives the put of a record that has it. -/
theorem All.put {P : String → String → FolderStatistics → Prop} (h : l.All P)
    (hs : P label folder s) : (l.put label folder s).All P := by
  intro label' folder' s' hFound
  by_cases hSame : label' = label ∧ folder' = folder
  · obtain ⟨rfl, rfl⟩ := hSame
    rw [record?_put_self] at hFound
    cases hFound
    exact hs
  · rw [record?_put_of_ne hSame] at hFound
    exact h _ _ _ hFound

/-- A property of all records survives making room for a solver. -/
theorem All.withSolver {P : String → String → FolderStatistics → Prop} (h : l.All P)
    (label : String) : (l.withSolver label).All P := by
  intro label' folder' s' hFound
  rw [record?_withSolver] at hFound
  exact h _ _ _ hFound

/-! ### Names and rows -/

theorem distinct_nil : Distinct [] := ⟨List.nodup_nil, List.forall_mem_nil _⟩

/-- In a ledger of distinct keys the folders of each solver are distinct. -/
theorem Distinct.nodup_recordsOf (h : l.Distinct) (label : String) :
    ((l.recordsOf label).map Prod.fst).Nodup := by
  rw [recordsOf]
  cases hLookup : l.lookup label with
  | none => exact List.nodup_nil
  | some records => exact h.folders _ (Document.mem_of_lookup hLookup)

/-- Putting a record keeps the keys of a ledger distinct. -/
theorem Distinct.put (h : l.Distinct) (label folder : String) (s : FolderStatistics) :
    (l.put label folder s).Distinct where
  labels := Document.nodup_putField h.labels _ _
  folders := by
    intro entry hEntry
    rcases Document.mem_putField hEntry with rfl | hOld
    · exact Document.nodup_putField (h.nodup_recordsOf label) _ _
    · exact h.folders entry hOld

/-- Making room for a solver keeps the keys of a ledger distinct. -/
theorem Distinct.withSolver (h : l.Distinct) (label : String) : (l.withSolver label).Distinct := by
  rw [Ledger.withSolver]
  cases hLookup : l.lookup label with
  | some records => exact h
  | none =>
      have hNew : label ∉ l.map Prod.fst := by
        rw [List.lookup_eq_none_iff] at hLookup
        rw [List.mem_map]
        rintro ⟨entry, hEntry, rfl⟩
        simpa using hLookup entry hEntry
      refine ⟨?_, ?_⟩
      · rw [List.map_append, List.map_singleton, ← List.concat_eq_append]
        exact h.labels.concat hNew
      · rw [List.forall_mem_append, List.forall_mem_singleton]
        exact ⟨h.folders, List.nodup_nil⟩

/-- A row of the ledger belongs to one of its records. -/
theorem Distinct.exists_of_mem_rows (h : l.Distinct) {row : SummaryRow} (hRow : row ∈ l.rows) :
    ∃ label folder s, l.record? label folder = some s ∧ row ∈ s.rows := by
  obtain ⟨⟨label, records⟩, hEntry, hRow⟩ := List.mem_flatMap.1 hRow
  obtain ⟨⟨folder, s⟩, hRecord, hRow⟩ := List.mem_flatMap.1 hRow
  refine ⟨label, folder, s, ?_, hRow⟩
  rw [record?, Document.lookup_of_mem h.labels hEntry]
  exact Document.lookup_of_mem (h.folders _ hEntry) hRecord

/-- The rows of a record of the ledger are rows of the ledger. -/
theorem mem_rows (h : l.record? label folder = some s) {row : SummaryRow} (hRow : row ∈ s.rows) :
    row ∈ l.rows := by
  obtain ⟨records, hRecords, hLookup⟩ := Option.bind_eq_some_iff.1 h
  exact List.mem_flatMap.2 ⟨_, Document.mem_of_lookup hRecords,
    List.mem_flatMap.2 ⟨_, Document.mem_of_lookup hLookup, hRow⟩⟩

/-- The rows of a record. -/
def rowsAt (l : Ledger) (label folder : String) : List SummaryRow :=
  ((l.record? label folder).map FolderStatistics.rows).getD []

/-- The rows at the keys of a record just put are the record's rows. -/
theorem rowsAt_put_self (l : Ledger) (label folder : String) (s : FolderStatistics) :
    (l.put label folder s).rowsAt label folder = s.rows := by
  rw [rowsAt, record?_put_self]
  rfl

/-- The rows of the new record come in the place of those of the old one. -/
theorem perm_rows_put (l : Ledger) (label folder : String) (s : FolderStatistics) :
    ((l.put label folder s).rows ++ l.rowsAt label folder).Perm (l.rows ++ s.rows) := by
  have hSolvers := Document.perm_flatMap_putField
    (fun records : List (String × FolderStatistics) => records.flatMap fun record => record.2.rows)
    l label (Document.putField (l.recordsOf label) folder s)
  have hFolders := Document.perm_flatMap_putField FolderStatistics.rows (l.recordsOf label) folder s
  rw [lookup_recordsOf] at hFolders
  have hOld : ((l.lookup label).map fun records : List (String × FolderStatistics) =>
      records.flatMap fun record => record.2.rows).getD [] =
        (l.recordsOf label).flatMap fun record => record.2.rows := by
    rw [recordsOf]
    cases l.lookup label <;> rfl
  rw [hOld] at hSolvers
  rw [List.perm_iff_count] at hSolvers hFolders ⊢
  intro row
  have hSolver := hSolvers row
  have hFolder := hFolders row
  rw [List.count_append, List.count_append] at hSolver hFolder ⊢
  rw [put, rows, rows, rowsAt]
  omega

/-- Making room for a solver adds no row. -/
theorem rows_withSolver (l : Ledger) (label : String) : (l.withSolver label).rows = l.rows := by
  rw [withSolver]
  cases l.lookup label with
  | some records => rfl
  | none =>
      rw [rows, List.flatMap_append]
      exact List.append_nil _

/-! ### What becomes of the records -/

/-- Every record is still there and counts no fewer instances, and one that is completed is as it
was. -/
def Advances (l l' : Ledger) : Prop :=
  ∀ label folder s, l.record? label folder = some s → ∃ s', l'.record? label folder = some s' ∧
    s.completedTests ≤ s'.completedTests ∧ (s.completed = true → s' = s)

namespace Advances

theorem refl (l : Ledger) : l.Advances l :=
  fun _ _ s hs => ⟨s, hs, Nat.le_refl _, fun _ => rfl⟩

theorem trans {l'' : Ledger} (h : l.Advances l') (h' : l'.Advances l'') : l.Advances l'' := by
  intro label folder s hs
  obtain ⟨s', hs', hLe, hSame⟩ := h label folder s hs
  obtain ⟨s'', hs'', hLe', hSame'⟩ := h' label folder s' hs'
  refine ⟨s'', hs'', Nat.le_trans hLe hLe', fun hCompleted => ?_⟩
  obtain rfl := hSame hCompleted
  exact hSame' hCompleted

/-- Putting a record that has got further, and that changes nothing where the folder was completed,
is an advance of the ledger. -/
theorem put (h : ∀ old, l.record? label folder = some old →
      old.completedTests ≤ s.completedTests ∧ (old.completed = true → s = old)) :
    l.Advances (l.put label folder s) := by
  intro label' folder' old hOld
  by_cases hSame : label' = label ∧ folder' = folder
  · obtain ⟨rfl, rfl⟩ := hSame
    exact ⟨s, l.record?_put_self _ _ s, h old hOld⟩
  · rw [record?_put_of_ne hSame]
    exact ⟨old, hOld, Nat.le_refl _, fun _ => rfl⟩

/-- The record of a folder that is not completed is worked on. -/
theorem put_put {old : FolderStatistics} (hOpen : old.completed = false)
    (hLe : old.completedTests ≤ s.completedTests) (l : Ledger) (label folder : String) :
    (l.put label folder old).Advances (l.put label folder s) := by
  rw [← l.put_put label folder old s]
  refine put fun s' hs' => ?_
  rw [record?_put_self] at hs'
  cases hs'
  exact ⟨hLe, fun hCompleted => absurd hCompleted (by simp [hOpen])⟩

/-- Making room for a solver is an advance of the ledger. -/
theorem withSolver (l : Ledger) (label : String) : l.Advances (l.withSolver label) := by
  intro label' folder s hs
  rw [record?_withSolver]
  exact ⟨s, hs, Nat.le_refl _, fun _ => rfl⟩

end Advances

end Ledger

end Benchmark

end SatLab
