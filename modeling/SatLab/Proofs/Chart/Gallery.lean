import SatLab.Proofs.Chart.Plans
import SatLab.Proofs.Chart.Rows

/-! All charts of a table, drawn one after the other on any canvas. Every row is a bar of the two
charts of its folder, every solver is a bar of the three charts of all solvers, and the comparison
has the times of all rows. What is to be drawn is fixed by the rows alone; a canvas only decides how
far drawing gets. -/

namespace SatLab

namespace Chart

open Sheet

variable {ε : Type} {canvas : Canvas ε} {e : Engine} {directory : String} {rows : List Result}

/-! ### Drawing -/

/-- Draws all charts of a gallery one after the other, and the comparison at last. -/
def Gallery.drawnOn (canvas : Canvas ε) (g : Gallery) : Except (Stop ε) Gallery := do
  (forM g.charts canvas.draw).mapError .refusal
  (canvas.compare g.comparison).mapError .refusal
  return g

/-- A gallery that asks for a range of a negative length. -/
def Gallery.IsNegative (g : Gallery) : Prop :=
  ∃ chart ∈ g.charts, chart.ranged = true ∧ ∃ b ∈ chart.bars, b.IsNegative

/-- What is documented of a canvas: no range has a negative length. -/
def Canvas.RefusesNegative (canvas : Canvas ε) : Prop :=
  ∀ bars : List Bar, (∃ b ∈ bars, b.IsNegative) → ∃ reason, canvas.ranges bars = .error reason

/-- A gallery is drawn exactly when each of its charts and the comparison are, and drawing changes
nothing about it. -/
theorem Gallery.drawnOn_eq_ok_iff {g g' : Gallery} : g.drawnOn canvas = .ok g' ↔
    g' = g ∧ (∀ chart ∈ g.charts, canvas.draw chart = .ok ()) ∧
      canvas.compare g.comparison = .ok () := by
  rw [drawnOn, bind_eq_ok_iff, ← forM_eq_ok_iff]
  simp only [mapError_eq_ok_iff, bind_eq_ok_iff]
  constructor
  · rintro ⟨_, hCharts, _, hComparison, ⟨⟩⟩
    exact ⟨rfl, hCharts, hComparison⟩
  · rintro ⟨rfl, hCharts, hComparison⟩
    exact ⟨(), hCharts, (), hComparison, rfl⟩

/-- A gallery is drawn, or the canvas refuses. -/
theorem Gallery.drawnOn_cases (g : Gallery) (canvas : Canvas ε) :
    g.drawnOn canvas = .ok g ∨ ∃ reason, g.drawnOn canvas = .error (.refusal reason) := by
  rw [drawnOn]
  cases forM g.charts canvas.draw with
  | error reason => exact .inr ⟨reason, rfl⟩
  | ok _ =>
      cases canvas.compare g.comparison with
      | error reason => exact .inr ⟨reason, rfl⟩
      | ok _ => exact .inl rfl

/-- A gallery with a range of a negative length is not drawn. -/
theorem Gallery.IsNegative.exists_refusal {g : Gallery} (h : g.IsNegative)
    (hCanvas : canvas.RefusesNegative) :
    ∃ reason, g.drawnOn canvas = .error (.refusal reason) := by
  refine (g.drawnOn_cases canvas).resolve_left fun hDrawn => ?_
  obtain ⟨chart, hChart, hRanged, hBar⟩ := h
  obtain ⟨reason, hRefused⟩ := hCanvas chart.bars hBar
  have hDraw := (drawnOn_eq_ok_iff.1 hDrawn).2.1 chart hChart
  obtain ⟨_, -, hRanges⟩ := bind_eq_ok_iff.1 hDraw
  rw [hRanged] at hRanges
  obtain ⟨_, hOk, -⟩ := bind_eq_ok_iff.1 hRanges
  rw [hRefused] at hOk
  cases hOk

/-! ### What charts show -/

/-- Charts that lose and repeat nothing of the rows. -/
structure Gallery.Depicts (e : Engine) (g : Gallery) (adjust : Cell → Cell) (directory : String)
    (rows : List Result) : Prop where
  solvers : KeysOf e.same (rows.map Result.solver) g.comparison.solvers
  folders : KeysOf e.same (rows.map Result.folder) g.comparison.folders
  solverGroups : KeysOf e.same (rows.map Result.solver)
    ((e.groupsBy Result.solver rows).map Prod.fst)
  folderGroups : KeysOf e.same (rows.map Result.folder)
    ((e.groupsBy Result.folder rows).map Prod.fst)
  charts : List.Forall₂ (BarChart.Follows e) g.charts (e.plans directory rows)
  comparison : ∃ grid, g.comparison = comparisonOf directory grid
  count : g.paths.length = 4 + 2 * g.comparison.folders.length
  entries : AreEntries e.same adjust rows g.comparison.solvers g.comparison.folders
    g.comparison.values

/-- The charts that are asked for have the paths of the names of all charts. -/
theorem paths_of_follow {g : Gallery}
    (h : List.Forall₂ (BarChart.Follows e) g.charts (e.plans directory rows))
    (hComparison : ∃ grid, g.comparison = comparisonOf directory grid) :
    g.paths = (chartNames ((e.groupsBy Result.folder rows).map fun group => group.1.shown)).map
      (pathIn directory) := by
  obtain ⟨grid, hComparison⟩ := hComparison
  have hPlans : g.charts.map BarChart.path = (e.plans directory rows).map Plan.path := by
    rw [← List.forall₂_eq_eq_eq, List.forall₂_map_left_iff, List.forall₂_map_right_iff]
    exact h.imp fun _ _ hFollows => hFollows.path
  rw [Gallery.paths, hPlans, hComparison, chartNames, Engine.plans]
  simp [Engine.solverPlans, solverNames, comparisonOf, comparisonName, folderPlans, timeName,
    stepsName, List.map_flatMap, List.flatMap_map]

theorem exists_of_mem_left {α β : Type} {R R' : α → β → Prop} {xs : List α} {ys : List β}
    (h : List.Forall₂ R xs ys) (h' : List.Forall₂ R' xs ys) {x : α} (hx : x ∈ xs) :
    ∃ y, R x y ∧ R' x y := by
  induction h with
  | nil => cases hx
  | cons hFirst _ ih =>
      cases h' with
      | cons hFirst' hRest' =>
          rcases List.mem_cons.1 hx with rfl | hRest
          · exact ⟨_, hFirst, hFirst'⟩
          · exact ih hRest' hRest

namespace Gallery.Depicts

variable {g : Gallery} {adjust : Cell → Cell} (h : g.Depicts e adjust directory rows)

include h

/-- Charts have different paths if folders are shown by different texts, and only then. -/
theorem nodup_paths_iff : g.paths.Nodup ↔
    ((e.groupsBy Result.folder rows).map fun group => group.1.shown).Nodup := by
  rw [paths_of_follow h.charts h.comparison, List.nodup_map_iff (pathIn_injective directory),
    nodup_chartNames_iff]

/-- A gallery asks for a range of a negative length if some measure of its rows does. -/
theorem isNegative_iff :
    g.IsNegative ↔ ∃ plan ∈ e.plans directory rows, plan.isNegative e = true :=
  exists_mem_iff_of_forall₂ (h.charts.imp fun _ _ hFollows => hFollows.isNegative_iff)

/-- The entry of a row is its adjusted time, so charts tell how times are adjusted. -/
theorem adjust_eq {adjust' : Cell → Cell} (h' : g.Depicts e adjust' directory rows) {row : Result}
    (hRow : row ∈ rows) : adjust row.avgTime = adjust' row.avgTime := by
  obtain ⟨solver, hSolver, hSolverSame⟩ := h.solvers.covers _ (List.mem_map_of_mem hRow)
  obtain ⟨folder, hFolder, hFolderSame⟩ := h.folders.covers _ (List.mem_map_of_mem hRow)
  obtain ⟨line, hLine, hLine'⟩ := exists_of_mem_left h.entries h'.entries hSolver
  obtain ⟨entry, hEntry, hEntry'⟩ := exists_of_mem_left hLine hLine' hFolder
  rw [← hEntry.present row hRow hSolverSame hFolderSame,
    hEntry'.present row hRow hSolverSame hFolderSame]

end Gallery.Depicts

/-- Folders that are different keys of one type are shown by different texts. -/
theorem Engine.Lawful.nodup_shown (h : e.Lawful) {k : ColumnType}
    (hKind : ∀ row ∈ rows, row.folder.FitsIn k)
    (hThere : ∀ row ∈ rows, row.folder.isMissing = false)
    {folders : List Cell} (hFolders : KeysOf e.same (rows.map Result.folder) folders) :
    (folders.map Cell.shown).Nodup := by
  have hFits : ∀ folder ∈ folders, folder.IsDefined ∧ folder.kind? = some k := by
    intro folder hMem
    obtain ⟨row, hRow, rfl⟩ := List.mem_map.1 (hFolders.mem folder hMem)
    refine ⟨(hKind row hRow).defined, (hKind row hRow).kind.resolve_left fun hNone => ?_⟩
    have hPresent := hThere row hRow
    cases hCell : row.folder <;> simp [hCell, Cell.kind?, Cell.isMissing] at hNone hPresent
  -- A folder is there, so all folders are of one type, and their texts tell them apart.
  rw [List.Nodup, List.pairwise_map]
  refine hFolders.distinct.imp_of_mem fun {a b} ha hb hSame hShown => ?_
  have hEqual : a = b := Cell.eq_of_shown ((hFits a ha).2.trans (hFits b hb).2.symm) (hFits a ha).1
    (hFits b hb).1 hShown
  rw [hEqual, h.same_self (hFits b hb).1] at hSame
  cases hSame

/-! ### The gallery of rows -/

/-- The comparison has the line of every solver, in the order that is asked for. -/
theorem IsReindexed.areEntries (h : e.Lawful) {grid ordered : Grid} {order : List Cell}
    {adjust : Cell → Cell}
    (hEntries : AreEntries e.same adjust rows grid.solvers grid.folders grid.values)
    (hReindexed : IsReindexed e.same grid order ordered) :
    AreEntries e.same adjust rows ordered.solvers ordered.folders ordered.values := by
  rw [AreEntries, hReindexed.solvers, hReindexed.folders]
  refine hReindexed.lines.imp fun solver line hLine => ?_
  obtain ⟨entry, hMem, hSame, rfl⟩ := hLine
  exact ((List.forall₂_iff_zip.1 hEntries).2 hMem).imp fun folder cell hCell =>
    hCell.congr h.same_symm h.same_trans hSame

/-- Rows with keys of their own and without flags as their times have a gallery, which is drawn as
far as the canvas allows. -/
theorem Engine.Lawful.exists_gallery (h : e.Lawful) (directory : String) (hTyped : Typed rows)
    (hKeyed : Keyed e.same rows) (hRange : ∀ row ∈ rows, ¬row.time.IsFlagged) :
    ∃ g : Gallery, g.Depicts e (adjustment e.same rows) directory rows ∧
      ∀ {ε : Type} (canvas : Canvas ε) (place : Nat),
        e.gallery canvas directory rows (.ok place) = g.drawnOn canvas := by
  let groups := e.groupsBy Result.solver rows
  let order := (e.ascending (groups.map e.groupTime)).map Measured.label
  have hSolverGroups :=
    h.keysOf_groupsBy (fun row hRow => (hTyped.defined row hRow).1) hKeyed.solver
  have hFolderGroups :=
    h.keysOf_groupsBy (fun row hRow => (hTyped.defined row hRow).2) hKeyed.folder
  obtain ⟨grid, hGrid, hPivot⟩ := h.pivot rows hTyped.defined hKeyed
  -- The comparison has the solvers in the order of their bars, the charts in the order of keys.
  have hOrder : order.Perm (groups.map Prod.fst) := by
    have hLabels : (groups.map e.groupTime).map Measured.label = groups.map Prod.fst := by
      rw [List.map_map]
      rfl
    exact hLabels ▸ (h.perm_ascending _).map Measured.label
  have hSolvers := hSolverGroups.perm h.same_symm hOrder
  have hReindexed : IsReindexed e.same grid order (e.reindex grid order) := by
    refine h.reindex grid order hPivot.entries.length_eq.symm fun solver hSolver => ?_
    obtain ⟨other, hOther, hSame⟩ := hPivot.solvers.covers solver (hSolvers.mem solver hSolver)
    exact ⟨other, hOther, h.same_symm hSame⟩
  obtain ⟨overall, hOverall, hDrawOverall⟩ :=
    h.exists_charts (h.isDrawn_solverPlans hTyped directory)
  obtain ⟨byFolder, hByFolder, hDrawByFolder⟩ :=
    h.exists_charts (isDrawn_folderPlans e directory hTyped hRange)
  have hFollow := List.rel_append hOverall hByFolder
  let g : Gallery :=
    { charts := overall ++ byFolder, comparison := comparisonOf directory (e.reindex grid order) }
  have hPaths := paths_of_follow (g := g) hFollow ⟨_, rfl⟩
  have hFolders : KeysOf e.same (rows.map Result.folder) g.comparison.folders := by
    rw [show g.comparison.folders = grid.folders from hReindexed.folders]
    exact hPivot.folders
  refine ⟨g, ?_, fun canvas place => ?_⟩
  · exact {
      solvers := by
        rw [show g.comparison.solvers = order from hReindexed.solvers]
        exact hSolvers
      folders := hFolders
      solverGroups := hSolverGroups
      folderGroups := hFolderGroups
      charts := hFollow
      comparison := ⟨_, rfl⟩
      count := by
        have hLength := Nat.le_antisymm
          (hFolderGroups.length_le hFolders h.same_symm h.same_trans)
          (hFolders.length_le hFolderGroups h.same_symm h.same_trans)
        rw [hPaths, List.length_map, length_chartNames, List.length_map, ← hLength, List.length_map]
      entries := hReindexed.areEntries h hPivot.entries }
  · simp only [gallery, hDrawOverall, hDrawByFolder, hGrid, Gallery.drawnOn]
    rw [List.forM_append]
    cases forM overall canvas.draw with
    | error reason => rfl
    | ok _ => cases forM byFolder canvas.draw <;> rfl

/-! ### Rows that cannot be drawn -/

/-- Rows of which one has flags as its times have no gallery. -/
theorem Engine.Lawful.exists_stop_of_isFlagged (h : e.Lawful) (canvas : Canvas ε)
    (directory : String) (place : Nat) (hTyped : Typed rows) (hKeyed : Keyed e.same rows)
    {row : Result} (hRow : row ∈ rows) (hFlag : row.time.IsFlagged) :
    ∃ stop, canvas.EndsWith stop ∧ e.gallery canvas directory rows (.ok place) = .error stop := by
  have hFolders := h.keysOf_groupsBy (fun row hRow => (hTyped.defined row hRow).2) hKeyed.folder
  have hNumeric := isNumeric_folderPlans e directory hTyped
  obtain ⟨plan, hPlan, hFlagged⟩ :=
    exists_isFlagged_folderPlans directory hFolders hRow hFlag
  obtain ⟨_, hPlanStop⟩ :=
    h.exists_error_of_isFlagged canvas (hNumeric plan hPlan) hFlagged
  obtain ⟨_, -, stop, -, hByFolder⟩ := exists_mapM_eq_error hPlan hPlanStop
  cases hOverall : (e.solverPlans directory (e.groupsBy Result.solver rows)).mapM
      (e.barWithRange canvas) with
  | error other =>
      refine ⟨other, h.endsWith_of_mapM (fun plan hPlan =>
        (h.isDrawn_solverPlans hTyped directory plan hPlan).1) hOverall, ?_⟩
      rw [gallery, hOverall]
      rfl
  | ok overall =>
      refine ⟨stop, h.endsWith_of_mapM hNumeric hByFolder, ?_⟩
      simp only [gallery, hOverall, hByFolder]
      rfl

/-! ### The charts of a text -/

variable {files made : FileTree} {text : List Char}

/-- Once the table is read and the directory made, plotting is drawing the gallery of its rows. -/
theorem exists_plot_eq_gallery (canvas : Canvas ε) (hRows : e.readRows text = .ok rows)
    (hMade : files.makeDirectories directory = .ok made) :
    ∃ place, e.plot canvas files directory text = e.gallery canvas directory rows (.ok place) := by
  obtain ⟨t, hTable, hRows⟩ := bind_eq_ok_iff.1 hRows
  obtain ⟨place, hPlace, hRows⟩ := bind_eq_ok_iff.1 hRows
  refine ⟨place, ?_⟩
  rw [Engine.plot, hTable, hMade, ← hPlace]
  change (resultRows t).mapError (fun fault => Stop.fault (.sheet fault)) >>= _ = _
  rw [hRows]
  rfl

/-- Rows without flags as their times have a gallery, which is what is drawn. -/
theorem Engine.Lawful.exists_plot (h : e.Lawful) (hRows : e.readRows text = .ok rows)
    (hMade : files.makeDirectories directory = .ok made) (hKeyed : Keyed e.same rows)
    (hRange : ∀ row ∈ rows, ¬row.time.IsFlagged) :
    ∃ g : Gallery, g.Depicts e (adjustment e.same rows) directory rows ∧
      ∀ {ε : Type} (canvas : Canvas ε),
        e.plot canvas files directory text = g.drawnOn canvas := by
  obtain ⟨g, hDepicts, hDrawn⟩ :=
    h.exists_gallery directory (h.typed_of_readRows hRows) hKeyed hRange
  refine ⟨g, hDepicts, fun canvas => ?_⟩
  obtain ⟨place, hPlot⟩ := exists_plot_eq_gallery canvas hRows hMade
  rw [hPlot, hDrawn canvas place]

/-- Rows with flags as their times are not drawn. -/
theorem Engine.Lawful.exists_stop (h : e.Lawful) (canvas : Canvas ε)
    (hRows : e.readRows text = .ok rows) (hMade : files.makeDirectories directory = .ok made)
    (hKeyed : Keyed e.same rows) (hFlag : ∃ row ∈ rows, row.time.IsFlagged) :
    ∃ stop, canvas.EndsWith stop ∧ e.plot canvas files directory text = .error stop := by
  obtain ⟨place, hPlot⟩ := exists_plot_eq_gallery canvas hRows hMade
  obtain ⟨row, hRow, hFlag⟩ := hFlag
  rw [hPlot]
  exact h.exists_stop_of_isFlagged canvas directory place (h.typed_of_readRows hRows) hKeyed hRow
    hFlag

/-- If all folders are typed together, their charts have different paths. -/
theorem Engine.Lawful.nodup_paths (h : e.Lawful) (hRows : e.readRows text = .ok rows)
    (hWhole : e.IsWhole text) (hKeyed : Keyed e.same rows) {g : Gallery} {adjust : Cell → Cell}
    (hDepicts : g.Depicts e adjust directory rows) : g.paths.Nodup := by
  obtain ⟨k, hKind⟩ := h.exists_kind_of_isWhole hRows hWhole
  have hShown := h.nodup_shown hKind hKeyed.folder hDepicts.folderGroups
  rw [List.map_map] at hShown
  exact hDepicts.nodup_paths_iff.2 hShown

/-! ### A canvas that writes its charts to files -/

/-- Why a canvas that writes to files refuses. -/
inductive Refusal where
  | negativeRange
  | access (fault : AccessFault)

/-- Writes a chart, of which only the path matters here. -/
def writeChart (files : FileTree) (path : String) : Except Refusal Unit :=
  match files.write path [] with
  | .ok _ => .ok ()
  | .error fault => .error (.access fault)

/-- A canvas that writes its charts to files. No range has a negative length. -/
def fileCanvas (files : FileTree) : Canvas Refusal where
  bars := fun _ => .ok ()
  ranges := fun bars => if ∃ b ∈ bars, b.IsNegative then .error .negativeRange else .ok ()
  save := fun chart => writeChart files chart.path
  compare := fun comparison => writeChart files comparison.path

/-- The canvas that writes into a file tree refuses negative ranges. -/
theorem refusesNegative_fileCanvas (files : FileTree) : (fileCanvas files).RefusesNegative :=
  fun _ hNegative => ⟨.negativeRange, if_pos hNegative⟩

/-- A chart is drawn into a file tree exactly when it has no negative range and its file can be
written. -/
theorem draw_fileCanvas_iff {chart : BarChart} : (fileCanvas files).draw chart = .ok () ↔
    ¬(chart.ranged = true ∧ ∃ b ∈ chart.bars, b.IsNegative) ∧
      writeChart files chart.path = .ok () := by
  rw [Canvas.draw]
  by_cases hRanged : chart.ranged = true
  · rw [if_pos hRanged]
    by_cases hNegative : ∃ b ∈ chart.bars, b.IsNegative
    · simp [fileCanvas, hRanged, hNegative, bind, Except.bind]
    · simp [fileCanvas, hNegative, bind, Except.bind]
  · simp [fileCanvas, hRanged, bind, Except.bind]

/-- Charts are written unless some range has a negative length or some path cannot be used. -/
theorem Gallery.drawnOn_fileCanvas_iff {g g' : Gallery} : g.drawnOn (fileCanvas files) = .ok g' ↔
    g' = g ∧ ¬g.IsNegative ∧ ∀ path ∈ g.paths, writeChart files path = .ok () := by
  rw [drawnOn_eq_ok_iff]
  refine and_congr_right fun _ => ?_
  have hComparison : (fileCanvas files).compare g.comparison =
    writeChart files g.comparison.path := rfl
  simp only [draw_fileCanvas_iff, hComparison, IsNegative, paths, List.forall_mem_append,
    List.forall_mem_map, List.forall_mem_singleton, not_exists, not_and]
  constructor
  · rintro ⟨hCharts, hLast⟩
    exact ⟨fun chart hChart => (hCharts chart hChart).1,
      fun chart hChart => (hCharts chart hChart).2, hLast⟩
  · rintro ⟨hRanges, hPaths, hLast⟩
    exact ⟨fun chart hChart => ⟨hRanges chart hChart, hPaths chart hChart⟩, hLast⟩

/-! ### Tables that are not drawn as they are -/

/-- Two solvers with different folders, and a time that has no exact double precision. -/
def gapTable : List SummaryRow :=
  [{ plainRow "a" "x" "9007199254740993" with minTime := "1", maxTime := "9007199254740997" },
    { plainRow "b" "y" "2" with
      minTime := "1", maxTime := "3", avgMemory := "2", maxMemory := "3", decisions := "9" }]

def gapRows : List Result :=
  [{ plainResult "a" (.text "x") (.signed 9007199254740993) with
      minTime := .signed 1, maxTime := .signed 9007199254740997 },
    { plainResult "b" (.text "y") (.signed 2) with
      minTime := .signed 1, maxTime := .signed 3, avgMemory := .signed 2, maxMemory := .signed 3,
      decisions := .signed 9 }]

/-- A row with flags as its times. -/
def flagTable : List SummaryRow := [{ plainRow "a" "x" "True" with minTime := "False" }]

def flagRows : List Result :=
  [{ plainResult "a" (.text "x") (.flag true) with minTime := .flag false }]

/-- Three equal times. Their mean is rounded up. -/
def evenTable : List SummaryRow := ["x", "y", "z"].map fun folder => plainRow "a" folder "0.100000"

/-- The time as it is read. -/
def tenth : Cell := ((readReal? "0.100000".toList).map Cell.real).getD .missing

def evenRows : List Result := ["x", "y", "z"].map fun folder => plainResult "a" (.text folder) tenth

/-- A folder whose charts would be in a directory that is not there. -/
def slashTable : List SummaryRow := plainTable ["p/q"]

def slashRows : List Result := [plainResult "a" (.text "p/q") (.signed 1)]

/-- Folders that fill a portion with numbers, and two more. The portions are typed apart: numbers
first, and then text. -/
def crowdedTable (count : Nat) : List SummaryRow :=
  plainTable ((List.range count).map toString ++ ["1", "x"])

def crowdedFolders (count : Nat) : List Cell :=
  ((List.range count).map fun n => .signed (.ofNat n)) ++ [.text "1", .text "x"]

def crowdedRows (count : Nat) : List Result :=
  (crowdedFolders count).map fun folder => plainResult "a" folder (.signed 1)

/-- A table that is read as rows with keys of their own. -/
structure IsRead (table : List SummaryRow) (rows : List Result) : Prop where
  reads : standard.readRows (Benchmark.tableText table).toList = .ok rows
  keyed : Keyed standard.same rows

theorem readRows_smallTables :
    ∀ entry ∈ [(gapTable, gapRows), (flagTable, flagRows), (evenTable, evenRows)],
      standard.readRows (Benchmark.tableText entry.1).toList = .ok entry.2 := by
  have hRead : ∀ entry ∈ [(gapTable, gapRows), (flagTable, flagRows), (evenTable, evenRows)],
      (standard.readRows (Benchmark.tableText entry.1).toList).toOption = some entry.2 := by
    simp only [readRows_tableText]
    decide +kernel
  exact fun entry hEntry => eq_ok_of_toOption (hRead entry hEntry)

theorem isRead_gapTable : IsRead gapTable gapRows where
  reads := readRows_smallTables (gapTable, gapRows) List.mem_cons_self
  keyed := ⟨by decide, by decide, by simp [gapRows, plainResult, standard, Cell.same, Cell.number?]⟩

theorem isRead_flagTable : IsRead flagTable flagRows where
  reads := readRows_smallTables (flagTable, flagRows) (List.mem_cons_of_mem _ List.mem_cons_self)
  keyed := ⟨by decide, by decide, by decide⟩

theorem isRead_evenTable : IsRead evenTable evenRows where
  reads := readRows_smallTables (evenTable, evenRows)
    (List.mem_cons_of_mem _ (List.mem_cons_of_mem _ List.mem_cons_self))
  keyed := ⟨by decide, by decide,
    by simp [evenRows, plainResult, standard, Cell.same, Cell.number?]⟩

theorem isProse_slash : IsProse "p/q".toList :=
  .of_noDigit (by decide) (by decide) (by decide)

theorem isRead_slashTable : IsRead slashTable slashRows where
  reads := by
    have hFolder : column 65536 (["p/q"].map fun folder => seen folder.toList) =
        [.text "p/q"] := by
      have hSeen : seen "p/q".toList = "p/q".toList := seen_of_not_mem (by decide)
      rw [List.map_singleton, hSeen,
        column_of_prose _ (List.forall_mem_singleton.2 (.inl isProse_slash))]
      rfl
    exact readRows_plainTable ["p/q"] hFolder
  keyed := ⟨by decide, by decide, by decide⟩

section Crowded

variable {count : Nat} (hSmall : count ≤ 65536)

include hSmall

/-- A crowded column is typed portion by portion: the portion of numbers as numbers, the one with a
word as text. -/
theorem column_crowdedFolders (hSome : 2 ≤ count) :
    column count (((List.range count).map toString ++ ["1", "x"]).map fun folder =>
      seen folder.toList) = crowdedFolders count := by
  have hDigits : ((List.range count).map toString).map (fun folder : String => seen folder.toList) =
      (List.range count).map (Nat.toDigits 10) := by
    rw [List.map_map]
    apply List.map_congr_left
    intro n _
    rw [Function.comp_apply, seen_of_not_mem (Benchmark.not_mem_toString (by decide) n)]
    simp
  have hFirst : portionCells ((List.range count).map (Nat.toDigits 10)) =
      (some .signed, (List.range count).map fun n => .signed (.ofNat n)) :=
    portionCells_toDigits fun n hn => by
      have := List.mem_range.1 hn
      omega
  have hLast : portionCells (["1", "x"].map fun folder => seen folder.toList) =
      (none, [.text "1", .text "x"]) := by decide +kernel
  have hAdjusted : Cell.adjustedTo [some .signed, none] = id := by simp [Cell.adjustedTo]
  rw [List.map_append, hDigits, column_append, hFirst, hLast, hAdjusted, List.map_id,
    crowdedFolders]
  · simp
    omega
  · simp
  · simp
  · simpa using hSome

/-- No two folders of the crowded table are taken for the same one. -/
theorem pairwise_crowdedFolders :
    (crowdedFolders count).Pairwise fun a b => a.same b = false := by
  have hNumbers : ((List.range count).map fun n => Cell.signed (.ofNat n)).Pairwise
      fun a b => a.same b = false := by
    rw [List.pairwise_map]
    refine List.nodup_range.imp_of_mem fun {m n} hm hn hNe => ?_
    rw [List.mem_range] at hm hn
    rw [Cell.same_signed, decide_eq_false_iff_not]
    intro hEqual
    have hInt := congrArg Int64.toInt hEqual
    rw [Int64.toInt_ofNat_of_lt (by omega), Int64.toInt_ofNat_of_lt (by omega)] at hInt
    exact hNe (Int.ofNat.inj hInt)
  rw [crowdedFolders, List.pairwise_append]
  refine ⟨hNumbers, by decide, List.forall_mem_map.2 fun n _ => ?_⟩
  simp [Cell.same, Cell.number?]

omit hSmall in
/-- A number and a text are different folders, but they are shown alike. -/
theorem not_nodup_crowdedKeys (hSome : 2 ≤ count) {keys : List Cell}
    (h : KeysOf Cell.same (crowdedFolders count) keys) : ¬(keys.map Cell.shown).Nodup := by
  intro hNodup
  have hNumber : .signed 1 ∈ crowdedFolders count := by
    refine List.mem_append_left _ (List.mem_map.2 ⟨1, List.mem_range.2 hSome, rfl⟩)
  have hText : .text "1" ∈ crowdedFolders count := List.mem_append_right _ List.mem_cons_self
  obtain ⟨k, hk, hSame⟩ := h.covers _ hNumber
  obtain ⟨k', hk', hSame'⟩ := h.covers _ hText
  have hText : k' = .text "1" := by
    rcases Cell.same_iff.1 hSame' with ⟨-, hEqual⟩ | ⟨_, _, -, hNone, -⟩
    · exact hEqual
    · cases hNone
  have hNumber : k = .signed 1 := by
    rcases List.mem_append.1 (h.mem k hk) with hFirst | hLast
    · obtain ⟨n, -, rfl⟩ := List.mem_map.1 hFirst
      rw [Cell.same_signed, decide_eq_true_eq] at hSame
      rw [hSame]
    · rcases List.mem_pair.1 hLast with rfl | rfl <;> cases hSame
  subst hText hNumber
  exact absurd (List.inj_on_of_nodup_map hNodup hk hk' rfl) nofun

end Crowded

theorem isRead_crowdedTable : IsRead (crowdedTable 65536) (crowdedRows 65536) where
  reads := readRows_plainTable _ (column_crowdedFolders (Nat.le_refl _) (by decide))
  keyed := {
    solver := List.forall_mem_map.2 fun _ _ => rfl
    folder := by
      refine List.forall_mem_map.2 fun folder hFolder => ?_
      rcases List.mem_append.1 hFolder with hNumber | hText
      · obtain ⟨n, -, rfl⟩ := List.mem_map.1 hNumber
        rfl
      · rcases List.mem_pair.1 hText with rfl | rfl <;> rfl
    distinct := by
      rw [crowdedRows, List.pairwise_map]
      refine (pairwise_crowdedFolders (Nat.le_refl _)).imp fun hDiffer => ?_
      have hFolder : standard.same _ _ = false := hDiffer
      simp [plainResult, hFolder] }

/-! ### What becomes of their charts -/

/-- The files after the directory of the charts has been made. -/
def chartFiles : FileTree := (∅ : FileTree).insert "results" .directory

theorem makeDirectories_results : (∅ : FileTree).makeDirectories "results" = .ok chartFiles :=
  FileTree.makeDirectories_none Benchmark.isName_resultFolder Std.ExtTreeMap.getElem?_empty

theorem getElem?_chartFiles : chartFiles["results"]? = some .directory := by
  simp [chartFiles]

theorem getElem?_chartFiles_of_ne {path : String} (h : path ≠ "results") :
    chartFiles[path]? = none := by
  rw [chartFiles, FileTree.getElem?_insert_entry, if_neg h.symm]
  exact Std.ExtTreeMap.getElem?_empty

/-- A chart in the directory of the results has the path of a file there. -/
theorem pathIn_results (name : String) :
    pathIn "results" name = FileTree.inFolder Benchmark.resultFolder name := by
  have hSlash : "results".endsWith "/" = false := by
    rw [String.endsWith_eq_endsWith_toSlice, String.Slice.endsWith_string_eq_false_iff]
    decide
  rw [pathIn, hSlash]
  rfl

/-- Charts whose names are names of files are written. -/
theorem writeChart_of_isName {name : String} (hName : FileTree.IsName name) :
    writeChart chartFiles (pathIn "results" name) = .ok () := by
  have hOther : FileTree.inFolder Benchmark.resultFolder name ≠ "results" := by
    intro hSame
    have hLength := congrArg String.length hSame
    rw [FileTree.inFolder, String.length_append, String.length_append] at hLength
    have hFolder : Benchmark.resultFolder.length = "results".length := rfl
    have hSlash : "/".length = 1 := by decide
    omega
  have hFree : chartFiles[FileTree.inFolder Benchmark.resultFolder name]? ≠ some .directory := by
    rw [getElem?_chartFiles_of_ne hOther]
    rintro ⟨⟩
  rw [writeChart, pathIn_results,
    FileTree.write_inFolder Benchmark.isName_resultFolder hName getElem?_chartFiles hFree]

/-- No chart is written below a directory that is not there. -/
theorem writeChart_slash : writeChart chartFiles (pathIn "results" (timeName "p/q")) ≠ .ok () := by
  have hPath : pathIn "results" (timeName "p/q") = "results/avg_time_p/q_log.png" :=
    (pathIn_results _).trans (by decide)
  have hFolder : FileTree.IsName "results" := Benchmark.isName_resultFolder
  have hParts : slashParts "results/avg_time_p/q_log.png" =
      ["results", "avg_time_p", "q_log.png"] := by decide
  have hThere : chartFiles.entryAt ([] ++ ["results"]) = some .directory := getElem?_chartFiles
  have hMissing : chartFiles.entryAt ["results", "avg_time_p"] = none :=
    getElem?_chartFiles_of_ne (by decide)
  have hResolve : chartFiles.resolve "results/avg_time_p/q_log.png" = .error .missing := by
    rw [FileTree.resolve_of_relative (by decide) (by decide) (by decide) (by decide), hParts,
      FileTree.follow_of_some hFolder _ hThere]
    have hShort : "avg_time_p".utf8ByteSize ≤ FileTree.nameLimit := by decide
    simp [FileTree.follow, Nat.not_lt.2 hShort, hMissing]
  rw [writeChart, hPath, FileTree.write, hResolve]
  rintro ⟨⟩

/-- All charts of a table are drawn, to different paths, and show its rows as they are. -/
def IsDepicted (table : List SummaryRow) (rows : List Result) : Prop :=
  ∃ g : Gallery, standard.plot (fileCanvas chartFiles) ∅ "results"
      (Benchmark.tableText table).toList = .ok g ∧
    g.Depicts standard id "results" rows ∧ g.paths.Nodup

theorem groupsBy_solver_gapRows : standard.groupsBy Result.solver gapRows =
    [(.text "a", [gapRows[0]]), (.text "b", [gapRows[1]])] := by cbv

theorem groupsBy_folder_gapRows : standard.groupsBy Result.folder gapRows =
    [(.text "x", [gapRows[0]]), (.text "y", [gapRows[1]])] := by cbv

theorem not_isFlagged_gapRows : ∀ row ∈ gapRows, ¬row.time.IsFlagged := by
  intro row hRow hFlag
  obtain ⟨⟨value, hValue⟩, -⟩ := hFlag
  fin_cases hRow <;> cases hValue

/-- The comparison of the two solvers has gaps, so its numbers are widened. -/
theorem adjustment_gapRows : adjustment standard.same gapRows = Cell.widened :=
  if_pos (by simp [hasGap, gapRows, plainResult, standard, Cell.same, Cell.number?])

/-- The charts of the table with a gap are written. -/
theorem exists_plot_gapTable : ∃ g : Gallery,
    standard.plot (fileCanvas chartFiles) ∅ "results" (Benchmark.tableText gapTable).toList =
      .ok g ∧ g.Depicts standard Cell.widened "results" gapRows := by
  obtain ⟨g, hDepicts, hDrawn⟩ := standard_lawful.exists_plot isRead_gapTable.reads
    makeDirectories_results isRead_gapTable.keyed not_isFlagged_gapRows
  refine ⟨g, ?_, adjustment_gapRows ▸ hDepicts⟩
  rw [hDrawn, Gallery.drawnOn_fileCanvas_iff, hDepicts.isNegative_iff,
    paths_of_follow hDepicts.charts hDepicts.comparison]
  refine ⟨rfl, ?_, List.forall_mem_map.2 fun name hName => writeChart_of_isName ?_⟩
  · have hNone : (standard.plans "results" gapRows).any (Plan.isNegative standard) = false := by
      rw [Engine.plans, groupsBy_solver_gapRows, groupsBy_folder_gapRows]
      decide +kernel
    simpa using hNone
  · rw [groupsBy_folder_gapRows] at hName
    constructor <;> revert name <;> decide

/-- The gap between two solvers widens the times that are compared, and one of them changes. -/
theorem not_isDepicted_gapTable : ¬IsDepicted gapTable gapRows := by
  rintro ⟨g, hPlot, hDepicts, -⟩
  obtain ⟨g', hPlot', hDepicts'⟩ := exists_plot_gapTable
  obtain rfl : g = g' := Except.ok.inj (hPlot.symm.trans hPlot')
  have hTime := hDepicts.adjust_eq hDepicts' List.mem_cons_self
  cases hTime

theorem exists_isFlagged_flagRows : ∃ row ∈ flagRows, row.time.IsFlagged :=
  ⟨_, List.mem_singleton_self _, ⟨true, rfl⟩, false, .inl rfl⟩

/-- A column of truth values has no differences to draw as a range. -/
theorem not_isDepicted_flagTable : ¬IsDepicted flagTable flagRows := by
  rintro ⟨g, hPlot, -⟩
  obtain ⟨stop, -, hStop⟩ := standard_lawful.exists_stop (fileCanvas chartFiles)
    isRead_flagTable.reads makeDirectories_results isRead_flagTable.keyed exists_isFlagged_flagRows
  rw [hStop] at hPlot
  cases hPlot

theorem not_isFlagged_plainResult {solver : String} {folder time : Cell}
    (h : ∀ value, time ≠ .flag value) : ¬(plainResult solver folder time).time.IsFlagged := by
  rintro ⟨⟨value, hValue⟩, -⟩
  exact h value hValue

theorem not_isFlagged_evenRows : ∀ row ∈ evenRows, ¬row.time.IsFlagged := by
  have hTenth : ∀ value, tenth ≠ .flag value := by
    rw [tenth]
    cases readReal? "0.100000".toList <;> simp
  intro row hRow
  obtain ⟨folder, -, rfl⟩ := List.mem_map.1 hRow
  exact not_isFlagged_plainResult hTenth

/-- The mean of equal times is above them all. -/
theorem exists_isNegative_evenRows :
    ∃ plan ∈ standard.plans "results" evenRows, plan.isNegative standard = true := by
  have hSolvers : evenRows.map Result.solver = [.text "a", .text "a", .text "a"] := rfl
  have hKeys : standard.keys [.text "a", .text "a", .text "a"] = [.text "a"] := by cbv
  have hGroups : standard.groupsBy Result.solver evenRows = [(.text "a", evenRows)] := by
    rw [Engine.groupsBy, hSolvers, hKeys]
    rfl
  have hSome : (standard.solverPlans "results" (standard.groupsBy Result.solver evenRows)).any
      (Plan.isNegative standard) = true := by
    rw [hGroups]
    decide +kernel
  obtain ⟨plan, hPlan, hNegative⟩ := List.any_eq_true.1 hSome
  exact ⟨plan, List.mem_append_left _ hPlan, hNegative⟩

/-- Three times of a tenth have a mean above their maximum, and the negative range is refused. -/
theorem not_isDepicted_evenTable : ¬IsDepicted evenTable evenRows := by
  rintro ⟨g, hPlot, -⟩
  obtain ⟨g', hDepicts, hDrawn⟩ := standard_lawful.exists_plot isRead_evenTable.reads
    makeDirectories_results isRead_evenTable.keyed not_isFlagged_evenRows
  rw [hDrawn, Gallery.drawnOn_fileCanvas_iff, hDepicts.isNegative_iff] at hPlot
  exact hPlot.2.1 exists_isNegative_evenRows

/-- A folder with a slash in its name asks for a chart in a directory that is not there. -/
theorem not_isDepicted_slashTable : ¬IsDepicted slashTable slashRows := by
  rintro ⟨g, hPlot, -⟩
  obtain ⟨g', hDepicts, hDrawn⟩ := standard_lawful.exists_plot isRead_slashTable.reads
    makeDirectories_results isRead_slashTable.keyed
    (List.forall_mem_singleton.2 (not_isFlagged_plainResult nofun))
  rw [hDrawn, Gallery.drawnOn_fileCanvas_iff,
    paths_of_follow hDepicts.charts hDepicts.comparison] at hPlot
  obtain ⟨-, -, hPaths⟩ := hPlot
  have hKeys : standard.keys (slashRows.map Result.folder) = [.text "p/q"] := by cbv
  have hFolders : (standard.groupsBy Result.folder slashRows).map (fun group => group.1.shown) =
      ["p/q"] := by
    rw [Engine.groupsBy, hKeys]
    rfl
  have hName : timeName "p/q" ∈ chartNames ["p/q"] := by simp [chartNames]
  rw [hFolders] at hPaths
  exact writeChart_slash (hPaths _ (List.mem_map_of_mem (f := pathIn "results") hName))

/-- Two folders that show as the same text ask for two charts of one path. -/
theorem not_isDepicted_crowdedTable {count : Nat} (hSome : 2 ≤ count) :
    ¬IsDepicted (crowdedTable count) (crowdedRows count) := by
  rintro ⟨g, -, hDepicts, hPaths⟩
  have hFolders : (crowdedRows count).map Result.folder = crowdedFolders count := by
    rw [crowdedRows, List.map_map]
    exact List.map_id _
  have hKeys : KeysOf Cell.same ((crowdedRows count).map Result.folder)
      ((standard.groupsBy Result.folder (crowdedRows count)).map Prod.fst) :=
    hDepicts.folderGroups
  rw [hFolders] at hKeys
  have hShown := hDepicts.nodup_paths_iff.1 hPaths
  refine not_nodup_crowdedKeys hSome hKeys ?_
  rwa [List.map_map]

end Chart

end SatLab
