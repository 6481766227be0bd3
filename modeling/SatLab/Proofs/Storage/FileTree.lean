import Mathlib.Data.List.TakeWhile
import SatLab.Storage.FormulaFile

/-! Files in a tree. What a path leads to stays the same as long as entries are only added, and a
file in a folder is read and written through its own entry. -/

namespace SatLab

namespace FileTree

variable {t t' : FileTree}

theorem getElem?_insert_entry (t : FileTree) (path other : String) (e : FileEntry) :
    (t.insert path e)[other]? = if path = other then some e else t[other]? := by
  simp [Std.ExtTreeMap.getElem?_insert]

/-- A tree that has at least the entries of another one. -/
def Keeps (t t' : FileTree) : Prop :=
  ∀ (path : String) (e : FileEntry), t[path]? = some e → t'[path]? = some e

theorem Keeps.refl (t : FileTree) : Keeps t t := fun _ _ h => h

/-- A new entry in a vacant place keeps all the others. -/
theorem Keeps.insert (h : Keeps t t') {path : String} (hNew : t[path]? = none) (e : FileEntry) :
    Keeps t (t'.insert path e) := by
  intro other f hf
  rw [getElem?_insert_entry, if_neg]
  · exact h other f hf
  · rintro rfl
    rw [hNew] at hf
    cases hf

/-- An entry that is taken away is the only one that is missing. -/
theorem keeps_erase (t : FileTree) (path : String) : Keeps (t.erase path) t := by
  intro other e he
  rw [Std.ExtTreeMap.getElem?_erase] at he
  split at he
  · cases he
  · exact he

theorem erase_insert_entry (t : FileTree) (path : String) (e : FileEntry) :
    (t.insert path e).erase path = t.erase path := by
  apply Std.ExtTreeMap.ext_getElem?
  intro other
  simp only [Std.ExtTreeMap.getElem?_erase, Std.ExtTreeMap.getElem?_insert]
  split <;> rfl

theorem Keeps.entryAt (h : Keeps t t') {parts : List String} {e : FileEntry}
    (he : t.entryAt parts = some e) : t'.entryAt parts = some e := by
  unfold FileTree.entryAt at he ⊢
  split at he
  · simp_all
  · simpa [*] using h _ e he

/-- A path that leads to an entry leads to it in every tree that keeps the entries. -/
theorem Keeps.follow (h : Keeps t t') {place target : Place} {entry found : FileEntry}
    {parts : List String} (hFound : t.follow place entry parts = .ok (.found target found)) :
    t'.follow place entry parts = .ok (.found target found) := by
  induction parts generalizing place entry with
  | nil => exact hFound
  | cons part rest ih =>
      cases entry with
      | file content => cases hFound
      | directory =>
          simp only [FileTree.follow] at hFound ⊢
          split at hFound
          · exact (if_pos ‹_›).trans (ih hFound)
          · rw [if_neg ‹_›]
            split at hFound
            · cases hFound
            · rw [if_neg ‹_›]
              cases place with
              | none =>
                  simp only at hFound ⊢
                  split at hFound
                  · exact (if_pos ‹_›).trans (ih hFound)
                  · cases hFound
              | some parts =>
                  simp only at hFound ⊢
                  split at hFound
                  · exact (if_pos ‹_›).trans (ih hFound)
                  · rw [if_neg ‹_›]
                    split at hFound
                    · rename_i e he
                      rw [h.entryAt he]
                      exact ih hFound
                    · split at hFound <;> cases hFound

/-- What a path leads to is still there when entries are added. -/
theorem Keeps.resolve (h : Keeps t t') {path : String} {place : Place} {e : FileEntry}
    (hFound : t.resolve path = .ok (.found place e)) :
    t'.resolve path = .ok (.found place e) := by
  unfold FileTree.resolve at hFound ⊢
  split at hFound
  · cases hFound
  · rw [if_neg ‹_›]
    split at hFound
    · cases hFound
    · rw [if_neg ‹_›]
      split at hFound
      · cases hFound
      · rw [if_neg ‹_›]
        exact h.follow hFound

/-- A file that can be read is read the same in every tree that keeps the entries. -/
theorem Keeps.read (h : Keeps t t') {path : String} {content : List UInt8}
    (hRead : t.read path = .ok content) : t'.read path = .ok content := by
  unfold FileTree.read at hRead ⊢
  split at hRead
  · cases hRead
  · cases hRead
  · cases hRead
  · rw [h.resolve ‹_›]
    exact hRead

/-- A formula that can be read stays the same. -/
theorem Keeps.ofFile (h : Keeps t t') {path : String} {f : Formula}
    (hRead : Dimacs.ofFile t path = .ok f) : Dimacs.ofFile t' path = .ok f := by
  rw [Dimacs.ofFile] at hRead ⊢
  cases hBytes : t.read path with
  | error fault =>
      rw [hBytes] at hRead
      cases hRead
  | ok bytes =>
      rw [hBytes] at hRead
      rw [h.read hBytes]
      exact hRead

/-! ### Paths part by part -/

section Follow

variable {place target : Place} {entry found : FileEntry}

/-- A path that leads to an entry leads to one on every part of the way. -/
theorem follow_append {before rest : List String} (hRest : rest ≠ [])
    (h : t.follow place entry (before ++ rest) = .ok (.found target found)) :
    ∃ middle between, t.follow place entry before = .ok (.found middle between) ∧
      t.follow middle between rest = .ok (.found target found) := by
  fun_induction FileTree.follow t place entry before with
  | case1 place entry => exact ⟨place, entry, rfl, h⟩
  | case2 => cases h
  | case3 place part before hStay ih =>
      simp only [List.cons_append, FileTree.follow, hStay, if_true] at h
      exact ih h
  | case4 place part before hStay hLong => simp [FileTree.follow, hStay, hLong] at h
  | case5 before hStay hLong ih =>
      simp only [List.cons_append, FileTree.follow, hStay, hLong, if_false, if_true] at h
      exact ih h
  | case6 part before hStay hLong hUp => simp [FileTree.follow, hStay, hLong, hUp] at h
  | case7 before parts hStay hLong ih =>
      simp only [List.cons_append, FileTree.follow, hStay, hLong, if_false, if_true] at h
      exact ih h
  | case8 part before hStay hLong parts hUp next e he ih =>
      have hNext : t.entryAt (parts ++ [part]) = some e := he
      simp only [List.cons_append, FileTree.follow, hStay, hLong, hUp, if_false, hNext] at h
      exact ih h
  | case9 part before hStay hLong parts hUp next he
  | case10 part before hStay hLong parts hUp next he =>
      simp [FileTree.follow, hStay, hLong, hUp, next, he, hRest] at h

/-- From outside no path leads back. -/
theorem follow_outside {path : List String}
    (h : t.follow none entry path = .ok (.found target found)) : target = none := by
  induction path generalizing entry with
  | nil =>
      cases h
      rfl
  | cons part path ih =>
      cases entry with
      | file content => cases h
      | directory =>
          simp only [FileTree.follow] at h
          split at h
          · exact ih h
          · split at h
            · cases h
            · split at h
              · exact ih h
              · cases h

/-- A path into a directory goes by the entry of its first part. -/
theorem entryAt_of_follow {part : String} {rest : List String} (hEmpty : part ≠ "")
    (hDot : part ≠ ".") (hDots : part ≠ "..")
    (h : t.follow place entry (part :: rest) = .ok (.found target found)) :
    ∃ parts, place = some parts ∧ (t.entryAt (parts ++ [part])).isSome = true := by
  cases entry with
  | file content => cases h
  | directory =>
      simp only [FileTree.follow, hEmpty, hDot, hDots, or_self, if_false] at h
      split at h
      · cases h
      · cases place with
        | none => cases h
        | some parts =>
            refine ⟨parts, rfl, ?_⟩
            cases he : t.entryAt (parts ++ [part]) with
            | some e => rfl
            | none =>
                simp only [he] at h
                split at h <;> cases h

theorem follow_of_present {path : String} (h : t.present path = true) :
    ∃ start target found, (start = none ∨ start = some []) ∧
      t.follow start .directory (slashParts path) = .ok (.found target found) := by
  unfold FileTree.present FileTree.resolve at h
  split at h
  · next target found hFound =>
      split at hFound
      · cases hFound
      · split at hFound
        · cases hFound
        · split at hFound
          · cases hFound
          · refine ⟨_, target, found, ?_, hFound⟩
            split
            · exact .inl rfl
            · exact .inr rfl
  · cases h

/-- The key of an entry ends with its last part. -/
theorem exists_key_concat (parts : List String) :
    ∃ left : List Char, ∀ part : String, (key (parts ++ [part])).toList = left ++ part.toList := by
  induction parts with
  | nil => exact ⟨[], fun part => by simp [key]⟩
  | cons first parts ih =>
      obtain ⟨left, hKey⟩ := ih
      refine ⟨first.toList ++ '/' :: left, fun part => ?_⟩
      have hCons : key (first :: (parts ++ [part])) = first ++ "/" ++ key (parts ++ [part]) := by
        cases parts with
        | nil => simp [key, String.intercalate_cons_cons]
        | cons next parts => simp [key, String.intercalate_cons_cons]
      rw [List.cons_append, hCons, String.toList_append, String.toList_append, hKey]
      simp

end Follow

/-! ### Files in a folder -/

/-- A name that is one part of a path and not too long. -/
structure IsName (name : String) : Prop where
  noSlash : '/' ∉ name.toList
  noNull : '\x00' ∉ name.toList
  ne_empty : name ≠ ""
  ne_dot : name ≠ "."
  ne_dots : name ≠ ".."
  short : name.utf8ByteSize ≤ nameLimit

/-- The path of a file in a folder. -/
def inFolder (folder name : String) : String := folder ++ "/" ++ name

/-- A short relative path is followed from the root of the tree. -/
theorem resolve_of_relative {path : String} (hNull : '\x00' ∉ path.toList) (hEmpty : path ≠ "")
    (hShort : path.utf8ByteSize ≤ pathLimit) (hRoot : path.toList.head? ≠ some '/')
    (t : FileTree) : t.resolve path = t.follow (some []) .directory (slashParts path) := by
  have hContains : path.contains '\x00' = false := by
    rw [String.contains_char_eq, decide_eq_false hNull]
  have hSome : path.isEmpty = false := by simpa using hEmpty
  have hStart : path.startsWith "/" = false := by
    rw [String.startsWith_string_eq_false_iff]
    rintro ⟨rest, hRest⟩
    rw [← hRest] at hRoot
    exact hRoot rfl
  simp [FileTree.resolve, hContains, hSome, hStart, Nat.not_lt.2 hShort]

section Folder

variable {folder name : String} {e : FileEntry}

theorem IsName.head_ne (h : IsName name) : name.toList.head? ≠ some '/' := fun hHead =>
  h.noSlash (List.mem_of_head? hHead)

/-- A directory is entered by the name of one of its entries. -/
theorem follow_of_some (h : IsName name) {parts : List String} (rest : List String)
    (he : t.entryAt (parts ++ [name]) = some e) :
    t.follow (some parts) .directory (name :: rest) =
      t.follow (some (parts ++ [name])) e rest := by
  simp only [FileTree.follow, h.ne_empty, h.ne_dot, h.ne_dots, or_self, if_false,
    Nat.not_lt.2 h.short, he]

theorem follow_of_none (h : IsName name) {parts : List String}
    (he : t.entryAt (parts ++ [name]) = none) :
    t.follow (some parts) .directory [name] = .ok (.vacant (parts ++ [name])) := by
  simp [FileTree.follow, h.ne_empty, h.ne_dot, h.ne_dots, Nat.not_lt.2 h.short, he]

theorem key_singleton (name : String) : key [name] = name := String.intercalate_singleton

theorem key_pair (folder name : String) : key [folder, name] = inFolder folder name := by
  rw [key, String.intercalate_cons_cons, String.intercalate_singleton, inFolder]

theorem entryAt_singleton (t : FileTree) (name : String) : t.entryAt [name] = t[name]? := by
  rw [entryAt, key_singleton]
  rfl

theorem entryAt_pair (t : FileTree) (folder name : String) :
    t.entryAt [folder, name] = t[inFolder folder name]? := by
  rw [entryAt, key_pair]
  rfl

theorem resolve_name (h : IsName name) (t : FileTree) :
    t.resolve name = t.follow (some []) .directory [name] := by
  have hShort : name.utf8ByteSize ≤ pathLimit := Nat.le_trans h.short (by decide)
  rw [resolve_of_relative h.noNull h.ne_empty hShort h.head_ne, slashParts,
    List.splitOn_eq_singleton h.noSlash, List.map_singleton, String.ofList_toList]

theorem resolve_name_some (h : IsName name) (he : t[name]? = some e) :
    t.resolve name = .ok (.found (some [name]) e) := by
  rw [resolve_name h, follow_of_some h [] (by rwa [List.nil_append, entryAt_singleton])]
  rfl

theorem resolve_name_none (h : IsName name) (he : t[name]? = none) :
    t.resolve name = .ok (.vacant [name]) := by
  rw [resolve_name h, follow_of_none h (by rwa [List.nil_append, entryAt_singleton])]
  rfl

section Relative

variable (hFolder : IsName folder) (hSlash : '/' ∉ name.toList) (hNull : '\x00' ∉ name.toList)

include hFolder hSlash

/-- A file in a folder has two parts: the folder and its own name. -/
theorem slashParts_inFolder : slashParts (inFolder folder name) = [folder, name] := by
  have hSplit : (inFolder folder name).toList.splitOn '/' = [folder.toList, name.toList] := by
    rw [inFolder, String.toList_append, String.toList_append, List.append_assoc]
    change List.splitOn '/' (folder.toList ++ '/' :: name.toList) = _
    rw [List.splitOn_append_cons_self_of_not_mem hFolder.noSlash,
      List.splitOn_eq_singleton hSlash]
  simp [slashParts, hSplit]

include hNull

/-- A path that is not too long is followed through the folder. -/
theorem resolve_of_short (hShort : (inFolder folder name).utf8ByteSize ≤ pathLimit) (t : FileTree) :
    t.resolve (inFolder folder name) = t.follow (some []) .directory [folder, name] := by
  have hPath : '\x00' ∉ (inFolder folder name).toList := by
    simp [inFolder, hFolder.noNull, hNull]
  have hEmpty : inFolder folder name ≠ "" := by simp [inFolder]
  have hRoot : (inFolder folder name).toList.head? ≠ some '/' := by
    have hHead := hFolder.head_ne
    have hNil : folder.toList ≠ [] := by simpa using hFolder.ne_empty
    cases hCons : folder.toList with
    | nil => exact absurd hCons hNil
    | cons c rest =>
        rw [hCons] at hHead
        simpa [inFolder, hCons] using hHead
  rw [resolve_of_relative hPath hEmpty hShort hRoot, slashParts_inFolder hFolder hSlash]

/-- A name that is too long leads nowhere. -/
theorem resolve_of_long (hLong : nameLimit < name.utf8ByteSize) (t : FileTree) :
    ∃ problem, t.resolve (inFolder folder name) = .error problem := by
  by_cases hPath : pathLimit < (inFolder folder name).utf8ByteSize
  · have hContains : (inFolder folder name).contains '\x00' = false := by
      rw [String.contains_char_eq, decide_eq_false]
      simp [inFolder, hFolder.noNull, hNull]
    have hSome : (inFolder folder name).isEmpty = false := by simp [inFolder]
    exact ⟨.nameTooLong, by simp [resolve, hContains, hSome, hPath]⟩
  · have hNamed : ∀ text : String, text.utf8ByteSize ≤ nameLimit → name ≠ text := by
      rintro text hText rfl
      omega
    have hEmpty := hNamed "" (by decide)
    have hDot := hNamed "." (by decide)
    rw [resolve_of_short hFolder hSlash hNull (Nat.le_of_not_lt hPath)]
    cases hEntry : t.entryAt [folder] with
    | none =>
        exact ⟨.missing, by simp [follow, hFolder.ne_empty, hFolder.ne_dot, hFolder.ne_dots,
          Nat.not_lt.2 hFolder.short, hEntry]⟩
    | some e =>
        rw [follow_of_some hFolder [name] hEntry]
        cases e with
        | directory => exact ⟨.nameTooLong, by simp [follow, hEmpty, hDot, hLong]⟩
        | file content => exact ⟨.notDirectory, rfl⟩

end Relative

variable (hFolder : IsName folder) (hName : IsName name) (hThere : t[folder]? = some .directory)

include hFolder hName

theorem resolve_follow (t : FileTree) :
    t.resolve (inFolder folder name) = t.follow (some []) .directory [folder, name] := by
  have hShort : (inFolder folder name).utf8ByteSize ≤ pathLimit := by
    have hLeft := hFolder.short
    have hRight := hName.short
    have hSlash : "/".utf8ByteSize = 1 := by decide
    rw [inFolder, String.utf8ByteSize_append, String.utf8ByteSize_append, hSlash]
    rw [nameLimit] at hLeft hRight
    rw [pathLimit]
    omega
  exact resolve_of_short hFolder hName.noSlash hName.noNull hShort t

/-- Nothing is written in a folder that is not there. -/
theorem write_missing (hMissing : t[folder]? = none) (content : List UInt8) :
    ∃ fault, t.write (inFolder folder name) content = .error fault := by
  have hEntry : t.entryAt [folder] = none := by rwa [entryAt_singleton]
  have hResolve : t.resolve (inFolder folder name) = .error .missing := by
    rw [resolve_follow hFolder hName]
    simp [follow, hFolder.ne_empty, hFolder.ne_dot, hFolder.ne_dots, Nat.not_lt.2 hFolder.short,
      hEntry]
  exact ⟨{ problem := .missing, path := inFolder folder name }, by rw [write, hResolve]⟩

include hThere

/-- Inside a directory a path is followed from the directory. -/
theorem resolve_inFolder :
    t.resolve (inFolder folder name) = t.follow (some [folder]) .directory [name] := by
  rw [resolve_follow hFolder hName,
    follow_of_some hFolder [name] (by rwa [List.nil_append, entryAt_singleton])]
  rfl

theorem resolve_inFolder_some (he : t[inFolder folder name]? = some e) :
    t.resolve (inFolder folder name) = .ok (.found (some [folder, name]) e) := by
  rw [resolve_inFolder hFolder hName hThere,
    follow_of_some hName [] (by rwa [List.singleton_append, entryAt_pair])]
  rfl

theorem resolve_inFolder_none (he : t[inFolder folder name]? = none) :
    t.resolve (inFolder folder name) = .ok (.vacant [folder, name]) := by
  rw [resolve_inFolder hFolder hName hThere,
    follow_of_none hName (by rwa [List.singleton_append, entryAt_pair])]
  rfl

/-- A file in a directory is present exactly when the tree has its entry. -/
theorem present_inFolder :
    t.present (inFolder folder name) = (t[inFolder folder name]?).isSome := by
  cases he : t[inFolder folder name]? with
  | none => rw [present, resolve_inFolder_none hFolder hName hThere he, Option.isSome_none]
  | some e => rw [present, resolve_inFolder_some hFolder hName hThere he, Option.isSome_some]

/-- A file in a directory is read as its content. -/
theorem read_inFolder {content : List UInt8}
    (he : t[inFolder folder name]? = some (.file content)) :
    t.read (inFolder folder name) = .ok content := by
  rw [read, resolve_inFolder_some hFolder hName hThere he]

/-- A file in a directory can be written, unless a directory has its name. -/
theorem write_inFolder (he : t[inFolder folder name]? ≠ some .directory) (content : List UInt8) :
    t.write (inFolder folder name) content =
      .ok (t.insert (inFolder folder name) (.file content)) := by
  cases hEntry : t[inFolder folder name]? with
  | none => simp only [write, resolve_inFolder_none hFolder hName hThere hEntry, key_pair]
  | some e =>
      cases e with
      | directory => exact absurd hEntry he
      | file old => simp only [write, resolve_inFolder_some hFolder hName hThere hEntry, key_pair]

/-- What is written is the one entry. -/
theorem eq_insert_of_write {t' : FileTree} {content : List UInt8}
    (h : t.write (inFolder folder name) content = .ok t') :
    t' = t.insert (inFolder folder name) (.file content) := by
  by_cases he : t[inFolder folder name]? = some .directory
  · rw [write, resolve_inFolder_some hFolder hName hThere he] at h
    cases h
  · rw [write_inFolder hFolder hName hThere he] at h
    cases h
    rfl

omit hName

theorem isDirectory_name : t.isDirectory folder = true := by
  rw [isDirectory, resolve_name_some hFolder hThere]

omit hThere

theorem eq_directory_of_isDirectory (h : t.isDirectory folder = true) :
    t[folder]? = some .directory := by
  unfold isDirectory at h
  cases hEntry : t[folder]? with
  | none => simp [resolve_name_none hFolder hEntry] at h
  | some e =>
      cases e with
      | directory => rfl
      | file content => simp [resolve_name_some hFolder hEntry] at h

theorem dropWhile_slash_name :
    folder.toList.reverse.dropWhile (· == '/') = folder.toList.reverse := by
  cases hReverse : folder.toList.reverse with
  | nil => rfl
  | cons c rest =>
      have hMem : c ∈ folder.toList := by
        rw [← List.mem_reverse, hReverse]
        exact List.mem_cons_self
      have hSlash : (c == '/') = false :=
        beq_false_of_ne fun hEq => hFolder.noSlash (hEq ▸ hMem)
      simp [hSlash]

theorem withoutLastSlashes_name : withoutLastSlashes folder = folder := by
  simp [withoutLastSlashes, dropWhile_slash_name hFolder]

theorem parentPath_name : parentPath folder = "" := by
  have hNone : folder.toList.reverse.dropWhile (· != '/') = [] := by
    rw [List.dropWhile_eq_nil_iff]
    intro c hc
    rw [bne_iff_ne]
    rintro rfl
    exact hFolder.noSlash (List.mem_reverse.1 hc)
  simp [parentPath, dropWhile_slash_name hFolder, hNone]

theorem makeDirectory_some (he : t[folder]? = some .directory) :
    t.makeDirectory folder = .ok t := by
  rw [makeDirectory, withoutLastSlashes_name hFolder, resolve_name_some hFolder he]

theorem makeDirectory_none (he : t[folder]? = none) :
    t.makeDirectory folder = .ok (t.insert folder .directory) := by
  simp only [makeDirectory, withoutLastSlashes_name hFolder, resolve_name_none hFolder he,
    key_singleton]

/-- A directory that is missing is made. -/
theorem makeDirectories_none (he : t[folder]? = none) :
    t.makeDirectories folder = .ok (t.insert folder .directory) := by
  have hMake : t.toMake folder folder.length = [folder] := by
    cases folder.length with
    | zero => rfl
    | succ depth => simp [toMake, parentPath_name hFolder]
  rw [makeDirectories, hMake, List.foldlM_cons, makeNext, makeDirectory_none hFolder he]
  rfl

/-- A directory that is made is there, and all else stays. -/
theorem of_makeDirectory_eq_ok {t' : FileTree} (h : t.makeDirectory folder = .ok t') :
    t'[folder]? = some .directory ∧ ∀ path, path ≠ folder → t'[path]? = t[path]? := by
  cases hEntry : t[folder]? with
  | none =>
      rw [makeDirectory_none hFolder hEntry] at h
      cases h
      refine ⟨(getElem?_insert_entry ..).trans (if_pos rfl), fun path hPath => ?_⟩
      exact (getElem?_insert_entry ..).trans (if_neg (Ne.symm hPath))
  | some e =>
      cases e with
      | directory =>
          rw [makeDirectory_some hFolder hEntry] at h
          cases h
          exact ⟨hEntry, fun _ _ => rfl⟩
      | file content =>
          rw [makeDirectory, withoutLastSlashes_name hFolder, resolve_name_some hFolder hEntry] at h
          cases h

end Folder

end FileTree

end SatLab
