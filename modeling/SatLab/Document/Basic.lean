import SatLab.Number.Binary64.Basic

/-!
Documents: nested data with named fields, as it is kept in files. The fields of a record have
an order, and each name occurs once.
-/

namespace SatLab

/-- A number of a document: an integer of any size, or a number of double precision. -/
inductive Number where
  | whole (value : Int)
  | real (value : Binary64)
deriving DecidableEq

inductive Document where
  | null
  | flag (value : Bool)
  | number (value : Number)
  | text (value : String)
  /-- A text with a surrogate that stands alone, by its code points. -/
  | unpaired (codes : List Nat)
  | list (items : List Document)
  | record (fields : List (String × Document))

namespace Document

def int (value : Int) : Document := .number (.whole value)

def real (value : Binary64) : Document := .number (.real value)

/-- Code points as characters; a surrogate that stands alone is replaced. -/
def lossyText (codes : List Nat) : String :=
  String.ofList (codes.map fun code => if code.isValidChar then Char.ofNat code else '\ufffd')

/-- The text of code points. -/
def ofCodes (codes : List Nat) : Document :=
  if codes.all (decide ·.isValidChar) then .text (String.ofList (codes.map Char.ofNat))
  else .unpaired codes

/-- The code points of a text give the text. -/
theorem ofCodes_toNat (value : String) : ofCodes (value.toList.map Char.toNat) = .text value := by
  have hValid : (value.toList.map Char.toNat).all (decide ·.isValidChar) = true := by
    simp only [List.all_map, List.all_eq_true, Function.comp_apply, decide_eq_true_eq]
    exact fun c _ => c.valid
  have hChars : (value.toList.map Char.toNat).map Char.ofNat = value.toList := by
    simp only [List.map_map]
    refine (List.map_congr_left fun c _ => ?_).trans (List.map_id _)
    exact Char.ofNat_toNat c
  rw [ofCodes, if_pos hValid, hChars, String.ofList_toList]

theorem lossyText_toNat (value : String) : lossyText (value.toList.map Char.toNat) = value := by
  have hChars : (value.toList.map Char.toNat).map
      (fun code => if code.isValidChar then Char.ofNat code else '\ufffd') = value.toList := by
    simp only [List.map_map]
    refine (List.map_congr_left fun c _ => ?_).trans (List.map_id _)
    exact (if_pos c.valid).trans (Char.ofNat_toNat c)
  rw [lossyText, hChars, String.ofList_toList]

/-- Puts a value under a name: in its place if the name is known, at the end otherwise. -/
def putField {α : Type} (fields : List (String × α)) (name : String) (value : α) :
    List (String × α) :=
  match fields with
  | [] => [(name, value)]
  | (key, old) :: rest =>
    if key = name then (key, value) :: rest else (key, old) :: putField rest name value

theorem lookup_putField_self {α : Type} (fields : List (String × α)) (name : String)
    (value : α) : (putField fields name value).lookup name = some value := by
  induction fields with
  | nil => simp [putField]
  | cons entry rest ih =>
      by_cases hKey : entry.1 = name
      · simp [putField, hKey]
      · have hOther : (name == entry.1) = false := beq_false_of_ne (Ne.symm hKey)
        simp only [putField, if_neg hKey, List.lookup_cons, hOther, ih]

theorem lookup_putField_of_ne {α : Type} (fields : List (String × α)) {name other : String}
    (value : α) (h : other ≠ name) :
    (putField fields name value).lookup other = fields.lookup other := by
  have hOther : (other == name) = false := beq_false_of_ne h
  induction fields with
  | nil => simp only [putField, List.lookup_cons, hOther, List.lookup_nil]
  | cons entry rest ih =>
      obtain ⟨key, old⟩ := entry
      by_cases hKey : key = name
      · subst hKey
        simp only [putField, if_true, List.lookup_cons, hOther]
      · simp only [putField, if_neg hKey, List.lookup_cons, ih]

section Append

variable {α : Type} {fields : List (String × α)} {name : String}

/-- Fields with other names are passed over. -/
theorem putField_append (h : name ∉ fields.map Prod.fst) (more : List (String × α)) (value : α) :
    putField (fields ++ more) name value = fields ++ putField more name value := by
  induction fields with
  | nil => rfl
  | cons entry rest ih =>
      simp only [List.map_cons, List.mem_cons, not_or] at h
      rw [List.cons_append, putField, if_neg (Ne.symm h.1), ih h.2, List.cons_append]

theorem putField_of_not_mem (h : name ∉ fields.map Prod.fst) (value : α) :
    putField fields name value = fields ++ [(name, value)] := by
  have hPut := putField_append h [] value
  rwa [List.append_nil] at hPut

theorem lookup_append (h : name ∉ fields.map Prod.fst) (more : List (String × α)) :
    (fields ++ more).lookup name = more.lookup name := by
  induction fields with
  | nil => rfl
  | cons entry rest ih =>
      simp only [List.map_cons, List.mem_cons, not_or] at h
      rw [List.cons_append, List.lookup_cons, beq_false_of_ne h.1]
      exact ih h.2

end Append

section Map

variable {α β : Type} (f : α → β) (fields : List (String × α)) (name : String)

theorem putField_map (value : α) :
    putField (fields.map fun field => (field.1, f field.2)) name (f value) =
      (putField fields name value).map fun field => (field.1, f field.2) := by
  induction fields with
  | nil => rfl
  | cons entry rest ih =>
      by_cases hKey : entry.1 = name
      · simp [putField, hKey]
      · simp [putField, hKey, ih]

theorem lookup_map : (fields.map fun field => (field.1, f field.2)).lookup name =
    (fields.lookup name).map f := by
  induction fields with
  | nil => rfl
  | cons entry rest ih =>
      rw [List.map_cons, List.lookup_cons, List.lookup_cons, ih]
      cases name == entry.1 <;> rfl

end Map

end Document

end SatLab
