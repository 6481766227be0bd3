import SatLab.Proofs.Benchmark.UpkeepRun

/-! What a bench takes up from a backup. The statistics of every bench are those of a ledger, and a
ledger that is saved is restored by any other bench. Of a backup that was made elsewhere or is
damaged, everything is kept if it is a document, and nothing if it is a text of another kind; bytes
that are no text, and texts with numerals or nestings that cannot be read, stop the bench. -/

namespace SatLab

namespace SummaryRow

/-- A document read as a count is that whole number. -/
theorem eq_of_count? {d : Document} {n : Nat} (h : count? d = some n) : d = .int n := by
  unfold count? at h
  split at h
  · cases h
    rfl
  · cases h

/-- A row that is read from a document is written as this document. -/
theorem toDocument_of_ofDocument? {d : Document} {r : SummaryRow} (h : ofDocument? d = some r) :
    r.toDocument = d := by
  unfold ofDocument? at h
  split at h
  · obtain ⟨m, hInconclusive, h⟩ := Option.bind_eq_some_iff.1 h
    obtain ⟨n, hFailed, h⟩ := Option.bind_eq_some_iff.1 h
    cases h
    rw [eq_of_count? hInconclusive, eq_of_count? hFailed]
    rfl
  · cases h

end SummaryRow

namespace FolderStatistics

/-- A list read element by element by a left inverse of the writer is written back as it was. -/
theorem map_of_mapM {α β : Type} {f : β → Option α} {g : α → β}
    (h : ∀ x y, f y = some x → g x = y) {xs : List α} {ys : List β} (hMap : ys.mapM f = some xs) :
    xs.map g = ys := by
  induction ys generalizing xs with
  | nil =>
      simp at hMap
      simp [hMap]
  | cons y ys ih =>
      simp [List.mapM_cons, Option.bind_eq_some_iff] at hMap
      obtain ⟨x, hFirst, rest, hRest, rfl⟩ := hMap
      rw [List.map_cons, h x y hFirst, ih hRest]

/-- A document read as a list of times is that list. -/
theorem reals_of_reals? {d : Document} {xs : List Binary64} (h : reals? d = some xs) :
    reals xs = d := by
  unfold reals? at h
  split at h
  · refine congrArg Document.list (map_of_mapM (fun x y hReal => ?_) h)
    unfold real? at hReal
    split at hReal
    · cases hReal
      rfl
    · cases hReal
  · cases h

/-- A document read as a list of rows is that list. -/
theorem rows_of_rows? {d : Document} {rows : List SummaryRow} (h : rows? d = some rows) :
    .list (rows.map SummaryRow.toDocument) = d := by
  unfold rows? at h
  split at h
  · exact congrArg Document.list
      (map_of_mapM (fun _ _ => SummaryRow.toDocument_of_ofDocument?) h)
  · cases h

/-- Statistics that are read from a document are written as this document. -/
theorem toDocument_of_ofDocument? {d : Document} {s : FolderStatistics}
    (h : ofDocument? d = some s) : s.toDocument = d := by
  unfold ofDocument? at h
  split at h
  · simp only [Option.bind_eq_bind, Option.bind_eq_some_iff, Option.pure_def,
      Option.some.injEq] at h
    obtain ⟨times, hTimes, memories, hMemories, inconclusive, hInconclusive, failed, hFailed,
      tests, hTests, rows, hRows, timeouts, hTimeouts, rfl⟩ := h
    simp [toDocument, reals_of_reals? hTimes, reals_of_reals? hMemories, rows_of_rows? hRows,
      SummaryRow.eq_of_count? hInconclusive, SummaryRow.eq_of_count? hFailed,
      SummaryRow.eq_of_count? hTests, SummaryRow.eq_of_count? hTimeouts, Document.real,
      Document.int]
  · cases h

end FolderStatistics

/-- Reading a folder's record loses nothing: every document is given back as it was read, of
whatever shape it is. -/
theorem FolderRecord.toDocument_ofDocument (d : Document) : (ofDocument d).toDocument = d := by
  unfold ofDocument
  split
  · next hKnown => exact FolderStatistics.toDocument_of_ofDocument? hKnown
  · rfl

/-- Reading a solver's record loses nothing. -/
theorem SolverRecord.toDocument_ofDocument (d : Document) : (ofDocument d).toDocument = d := by
  cases d with
  | record fields =>
      simp [ofDocument, toDocument, Function.comp_def, FolderRecord.toDocument_ofDocument]
  | _ => rfl

/-- Nothing of a document is lost in the statistics that are made of it. -/
theorem Statistics.toDocument_ofDocument (d : Document) : (ofDocument d).toDocument = d := by
  cases d with
  | record fields =>
      simp [ofDocument, toDocument, Function.comp_def, SolverRecord.toDocument_ofDocument]
  | _ => rfl

namespace Benchmark

/-! ### What is saved is restored -/

/-- Every campaign upholds the rule that asks nothing. -/
theorem Campaign.upholds_true (c : Campaign) (start : Workbench) :
    c.Upholds start (fun _ => True) fun _ _ _ _ => True where
  grows := fun _ _ => trivial
  fresh := fun _ _ _ _ _ => trivial
  step := fun _ _ _ _ _ _ _ _ => trivial

/-- The statistics of every bench are a ledger, and so is every backup that is a document. -/
theorem History.exists_kept {calls : List (Campaign × Workbench)} {w : Workbench}
    (h : History (fun _ => True) (fun _ => True) calls w) :
    ∃ l, Kept (fun _ _ s => s.Coherent) w l := by
  refine h.kept (R := fun _ _ _ s => s.Coherent) fun {calls w c l} hKept _ hEnds => ?_
  obtain ⟨-, -, hLeaves⟩ := (c.upholds_true w).run (hKept.mono fun _ _ _ hs => ⟨hs, trivial⟩)
  obtain ⟨l', hl'⟩ := hLeaves hEnds
  exact ⟨l', hl'.kept.mono fun _ _ _ hs => hs.coherent⟩

/-- The statistics of a bench are the same in every bench that loads what this one has saved. -/
def Workbench.Restores (w : Workbench) : Prop :=
  ∃ saved, w.save = .done saved ∧ ∀ other : Workbench, other.files = saved.files →
    ∃ loaded, other.load = .done loaded ∧ loaded.statistics = w.statistics

/-- A ledger that can be written is restored, unless a directory is in the way. -/
theorem restores_ledger {w : Workbench} {l : Ledger}
    (hFolder : w.files[resultFolder]? = some .directory)
    (hBackup : w.files[backupPath]? ≠ some .directory) (hStatistics : w.statistics = l.statistics)
    (hDistinct : l.Distinct) (hWritable : l.Writable) : w.Restores := by
  refine ⟨_, save_writable hFolder hBackup hStatistics hWritable, fun other hOther => ?_⟩
  have hOtherFolder : other.files[resultFolder]? = some .directory := by
    rw [hOther]
    show (w.files.insert backupPath _)[resultFolder]? = _
    rw [FileTree.getElem?_insert_entry, if_neg (by decide), hFolder]
  have hOtherBackup : other.files[backupPath]? = some (.file (Utf8.encode l.text)) := by
    rw [hOther]
    show (w.files.insert backupPath _)[backupPath]? = _
    rw [FileTree.getElem?_insert_entry, if_pos rfl]
  obtain ⟨line, hLoad⟩ := load_text hOtherFolder hOtherBackup hDistinct hWritable rfl
  exact ⟨_, hLoad, hStatistics.symm⟩

/-- After any calls of campaigns, with saves and restarts at every moment in between, the statistics
are a ledger. If the directory of the results is there, every ledger without too long integers that
is saved then, the one of the bench included, is restored as a whole by any other bench on the
files: solvers, folders, and records are equal and in the same order. Before the first call there is
no backup. -/
theorem save_load_restores {calls : List (Campaign × Workbench)} {w : Workbench}
    (h : History (fun _ => True) (fun _ => True) calls w)
    (hFolder : w.files.isDirectory resultFolder = true) :
    (∃ l : Ledger, l.Distinct ∧ w.statistics = l.statistics) ∧
      ∀ l : Ledger, l.Distinct → l.Writable →
        Workbench.Restores { w with statistics := l.statistics } := by
  obtain ⟨kept, hKept⟩ := h.exists_kept
  refine ⟨⟨kept, hKept.distinct, hKept.statistics⟩, fun l hDistinct hWritable => ?_⟩
  have hThere := FileTree.eq_directory_of_isDirectory isName_resultFolder hFolder
  exact restores_ledger hThere hKept.backup_ne rfl hDistinct hWritable

/-- A ledger whose names have quotes, backslashes, line feeds, and characters of all sizes. -/
def unusualLedger : Ledger :=
  [("say \"no\" \\",
      [("naïve\n\x00", { FolderStatistics.fresh with
          times := [.ofRatio false 1 10, .infinite false], memories := [.zero, .ofRatio false 5 2],
          memoryLeast := .zero, memoryLargest := .ofRatio false 5 2, completed := true,
          completedTests := 2, decisions := -7,
          rows := [{ solver := "say \"no\" \\", folder := "naïve\n\x00", avgTime := "inf",
                     minTime := "0.100000", maxTime := "inf", avgMemory := "1.25",
                     minMemory := "0.00", maxMemory := "2.50", inconclusive := 0, failed := 0,
                     decisions := "-3.50" }] })]),
    ("𝄞", []), ("", [("", .fresh)])]

/-- The directory of the results, with nothing in it. -/
def noResultFiles : FileTree := ({} : FileTree).insert resultFolder .directory

theorem save_load_restores_unusual :
    History (fun _ => True) (fun _ => True) [] (.ofFiles noResultFiles) ∧
      noResultFiles.isDirectory resultFolder = true ∧
      Workbench.Restores { Workbench.ofFiles noResultFiles with
        statistics := unusualLedger.statistics } := by
  have hEntry : ∀ path, noResultFiles[path]? =
      if resultFolder = path then some .directory else none := by
    intro path
    rw [noResultFiles, FileTree.getElem?_insert_entry]
    rfl
  have hStart : History (fun _ => True) (fun _ => True) [] (.ofFiles noResultFiles) :=
    .start ((hEntry backupPath).trans (if_neg (by decide)))
  have hFolder : noResultFiles.isDirectory resultFolder = true :=
    FileTree.isDirectory_name isName_resultFolder ((hEntry resultFolder).trans (if_pos rfl))
  have hDistinct : unusualLedger.Distinct := by
    constructor
    · decide
    · simp [unusualLedger]
  have hWritable : unusualLedger.Writable := by
    have hShort : ∀ k : Int, k.natAbs ≤ 7 → FolderStatistics.Short k :=
      fun k hk => FolderStatistics.short_of_le (Nat.le_trans hk (by decide))
    have hZero := hShort 0 (by decide)
    simp only [Ledger.Writable, unusualLedger, List.forall_mem_cons]
    refine ⟨⟨?_, List.forall_mem_nil _⟩, List.forall_mem_nil _,
      ⟨FolderStatistics.writable_fresh, List.forall_mem_nil _⟩, List.forall_mem_nil _⟩
    exact ⟨hZero, hZero, hShort 2 (by decide), List.forall_mem_singleton.2 ⟨hZero, hZero⟩, hZero,
      hShort (-7) (by decide)⟩
  exact ⟨hStart, hFolder, (save_load_restores hStart hFolder).2 _ hDistinct hWritable⟩

/-! ### What a backup of any bytes comes to -/

section Bytes

variable (depth : Depth) (bytes : List UInt8)

/-- The bytes are those of a text that spells a document, or why this text does not. -/
def Spells (read : Except DocumentFault Document) : Prop :=
  ∃ text, bytes = Utf8.encode text ∧ Document.parse text depth.limit = read

variable {depth bytes} in
/-- The bytes of a file spell one document or one fault, never two. -/
theorem Spells.unique {read read' : Except DocumentFault Document}
    (h : Spells depth bytes read) (h' : Spells depth bytes read') : read = read' := by
  obtain ⟨text, rfl, rfl⟩ := h
  obtain ⟨text', hBytes, rfl⟩ := h'
  have hChars := Utf8.decode_encode text
  rw [hBytes, Utf8.decode_encode] at hChars
  rw [String.toList_injective (Except.ok.inj hChars)]

/-- How a bench takes up a backup with these bytes: the fault that stops it, or the statistics it
has from now on. -/
inductive TakesUp : Except Fault Statistics → Prop where
  | restored {s : Statistics} (h : Spells depth bytes (.ok s.toDocument)) : TakesUp (.ok s)
  | dropped (h : Spells depth bytes (.error .malformed)) : TakesUp (.ok .empty)
  | encoding {fault : Utf8Fault} (hText : ∀ text, bytes ≠ Utf8.encode text) :
      TakesUp (.error (.encoding fault))
  | numeral {digits : Nat} (h : Spells depth bytes (.error (.tooLong digits))) :
      TakesUp (.error (.numeral { digits }))
  | nesting {isRecord : Bool} (h : Spells depth bytes (.error (.tooDeep isRecord))) :
      TakesUp (.error (.nesting isRecord))

/-- As documented: the statistics are the record that the bytes spell, or empty if they spell
none. -/
def Documented (s : Statistics) : Prop :=
  (∃ fields, Spells depth bytes (.ok (.record fields)) ∧ s.toDocument = .record fields) ∨
    (∀ fields, ¬Spells depth bytes (.ok (.record fields))) ∧ s = .empty

/-- The bytes spell a record, or they are a text that spells no document at all. -/
def RecordOrNone : Prop :=
  (∃ fields, Spells depth bytes (.ok (.record fields))) ∨ Spells depth bytes (.error .malformed)

variable {depth bytes} in
/-- Where the backup is a record or no document at all, its bytes are text. -/
theorem RecordOrNone.exists_text (h : RecordOrNone depth bytes) :
    ∃ text, bytes = Utf8.encode text := by
  rcases h with ⟨_, text, hBytes, -⟩ | ⟨text, hBytes, -⟩ <;> exact ⟨text, hBytes⟩

end Bytes

namespace TakesUp

variable {depth : Depth} {bytes : List UInt8}

/-- Statistics taken up from the backup are the documented ones exactly when the backup is a record
or no document at all. -/
theorem documented_iff {s : Statistics} (h : TakesUp depth bytes (.ok s)) :
    Documented depth bytes s ↔ RecordOrNone depth bytes := by
  cases h with
  | restored h =>
      constructor
      · rintro (⟨fields, hFields, -⟩ | ⟨hNone, rfl⟩)
        · exact .inl ⟨fields, hFields⟩
        · exact absurd h (hNone [])
      · rintro (⟨fields, hFields⟩ | hMalformed)
        · exact .inl ⟨fields, hFields, Except.ok.inj (h.unique hFields)⟩
        · cases h.unique hMalformed
  | dropped h =>
      constructor
      · exact fun _ => .inr h
      · intro _
        refine .inr ⟨fun fields hFields => ?_, rfl⟩
        cases h.unique hFields

/-- A backup that stops the run was neither a record nor a text without a document. -/
theorem not_recordOrNone {fault : Fault} (h : TakesUp depth bytes (.error fault)) :
    ¬RecordOrNone depth bytes := by
  intro hReadable
  cases h with
  | encoding hText =>
      obtain ⟨text, hBytes⟩ := hReadable.exists_text
      exact hText text hBytes
  | numeral h | nesting h =>
      rcases hReadable with ⟨_, hFields⟩ | hMalformed
      · cases h.unique hFields
      · cases h.unique hMalformed

end TakesUp

section Load

variable {w : Workbench} {bytes : List UInt8} (hRead : w.files.read backupPath = .ok bytes)

include hRead

/-- A backup that can be read is there. -/
theorem present_of_read : w.files.present backupPath = true := by
  unfold FileTree.read at hRead
  unfold FileTree.present
  split at hRead <;> simp_all

/-- A bench that loads takes up the bytes of its backup. -/
theorem load_takesUp :
    (∃ loaded, w.load = .done loaded ∧ TakesUp w.depth bytes (.ok loaded.statistics)) ∨
      ∃ stopped fault, w.load = .stopped stopped fault ∧ TakesUp w.depth bytes (.error fault) := by
  have hPresent := present_of_read hRead
  simp only [Workbench.load, hPresent, if_true, Workbench.readBackup, Workbench.printLine, hRead,
    Except.mapError, bind, Except.bind]
  cases hDecode : Utf8.decode bytes with
  | error fault =>
      refine .inr ⟨_, _, rfl, .encoding fun text hText => ?_⟩
      rw [hText, Utf8.decode_encode] at hDecode
      cases hDecode
  | ok chars =>
      have hBytes := Utf8.decode_eq_ok_iff.1 hDecode
      cases hParse : Document.parse (String.ofList chars) w.depth.limit with
      | ok d =>
          simp only [hParse]
          refine .inl ⟨_, rfl, .restored ?_⟩
          rw [Statistics.toDocument_ofDocument]
          exact ⟨_, hBytes, hParse⟩
      | error fault =>
          have hSpells : Spells w.depth bytes (.error fault) := ⟨_, hBytes, hParse⟩
          simp only [hParse]
          cases fault with
          | malformed => exact .inl ⟨_, rfl, .dropped hSpells⟩
          | tooLong digits => exact .inr ⟨_, _, rfl, .numeral hSpells⟩
          | tooDeep isRecord => exact .inr ⟨_, _, rfl, .nesting hSpells⟩

/-- A backup is loaded as documented if and only if it is a record, or a text that spells no
document at all. All others are not: documents of another kind become the statistics, and bytes that
are no text, or numerals and nestings beyond what can be read, stop the bench. This is so whatever
depth the bench can read; the depth only decides which documents are nested beyond it. Of a record
it is asked that the statistics are the record that was read, in which the names of fields have lost
the surrogates that stood alone in them. -/
theorem load_documented_iff :
    (∃ loaded, w.load = .done loaded ∧ Documented w.depth bytes loaded.statistics) ↔
      RecordOrNone w.depth bytes := by
  rcases load_takesUp hRead with ⟨loaded, hLoad, hTakes⟩ | ⟨stopped, fault, hLoad, hTakes⟩
  · rw [← hTakes.documented_iff]
    constructor
    · rintro ⟨loaded', hLoad', hDocumented⟩
      rw [hLoad] at hLoad'
      cases hLoad'
      exact hDocumented
    · exact fun hDocumented => ⟨loaded, hLoad, hDocumented⟩
  · constructor
    · rintro ⟨loaded, hLoad', -⟩
      rw [hLoad] at hLoad'
      cases hLoad'
    · exact fun hReadable => absurd hReadable hTakes.not_recordOrNone

end Load

/-- A backup, and nothing else. -/
def backupFiles (bytes : List UInt8) : FileTree :=
  (({} : FileTree).insert resultFolder .directory).insert backupPath (.file bytes)

theorem read_backupFiles (bytes : List UInt8) :
    (backupFiles bytes).read backupPath = .ok bytes := by
  have hFolder : (backupFiles bytes)[resultFolder]? = some .directory := by
    rw [backupFiles, FileTree.getElem?_insert_entry, if_neg (by decide),
      FileTree.getElem?_insert_entry, if_pos rfl]
  have hBackup : (backupFiles bytes)[backupPath]? = some (.file bytes) := by
    rw [backupFiles, FileTree.getElem?_insert_entry, if_pos rfl]
  rw [backupPath_eq] at hBackup ⊢
  exact FileTree.read_inFolder isName_resultFolder isName_backup hFolder hBackup

/-- A list that is not closed is no document, and the bench starts afresh. -/
theorem load_documented_unclosed :
    let w := Workbench.ofFiles (backupFiles (Utf8.encode "["))
    w.files.read backupPath = .ok (Utf8.encode "[") ∧
      ∃ loaded, w.load = .done loaded ∧ Documented w.depth (Utf8.encode "[") loaded.statistics := by
  intro w
  have hRead : w.files.read backupPath = .ok (Utf8.encode "[") := read_backupFiles _
  have hParse : Document.parse "[" w.depth.limit = .error .malformed := by
    show Document.ofTokens w.depth.limit (Token.scan ['[']) = _
    rw [Token.scan_openList, Token.scan]
    rfl
  have hNone : RecordOrNone w.depth (Utf8.encode "[") := .inr ⟨"[", rfl, hParse⟩
  exact ⟨hRead, (load_documented_iff hRead).2 hNone⟩

/-- A single byte that begins no character is enough to stop the bench. -/
theorem load_noText_undocumented : ¬∀ (w : Workbench) (bytes : List UInt8),
    w.files.read backupPath = .ok bytes →
      ∃ loaded, w.load = .done loaded ∧ Documented w.depth bytes loaded.statistics := by
  intro hAll
  obtain ⟨loaded, hLoad, hDocumented⟩ :=
    hAll (.ofFiles (backupFiles [0xff])) [0xff] (read_backupFiles _)
  have hText : ∀ text, [0xff] ≠ Utf8.encode text := by
    intro text hBytes
    have hDecode := Utf8.decode_encode text
    rw [← hBytes] at hDecode
    cases hDecode
  rcases load_takesUp (w := .ofFiles (backupFiles [0xff])) (read_backupFiles _) with
    ⟨loaded', hLoad', hTakes⟩ | ⟨stopped, fault, hLoad', -⟩
  · rw [hLoad] at hLoad'
    cases hLoad'
    obtain ⟨text, hBytes⟩ := (hTakes.documented_iff.1 hDocumented).exists_text
    exact hText text hBytes
  · rw [hLoad] at hLoad'
    cases hLoad'

end Benchmark

end SatLab
