import SatLab.Proofs.Chart.Plot

/-! The charts that rows ask for. All of them are charts of numbers, so that they can be drawn as
far as the engine is concerned, unless some row has flags as its times. Whether a range has a
negative length can be told from the measures. -/

namespace SatLab

namespace Chart

open Sheet

variable {ε : Type} {canvas : Canvas ε} {e : Engine} {directory : String} {rows : List Result}

/-! ### The measures of rows and of groups -/

namespace Typed

variable (h : Typed rows) {row : Result} (hRow : row ∈ rows)

include h hRow

/-- The times of a row in a typed table are numbers. -/
theorem time : row.time.IsNumeric true where
  average := h.numeric ("avg_time", Result.avgTime) (by simp [resultColumns]) (by decide) row hRow
  range := fun _ =>
    ⟨h.numeric ("min_time", Result.minTime) (by simp [resultColumns]) (by decide) row hRow,
      h.numeric ("max_time", Result.maxTime) (by simp [resultColumns]) (by decide) row hRow⟩

/-- The memories of a row in a typed table are numbers. -/
theorem memory : row.avgMemory.IsNumeric ∧ row.minMemory.IsNumeric ∧ row.maxMemory.IsNumeric :=
  ⟨h.numeric ("avg_mem", Result.avgMemory) (by simp [resultColumns]) (by decide) row hRow,
    h.numeric ("min_mem", Result.minMemory) (by simp [resultColumns]) (by decide) row hRow,
    h.numeric ("max_mem", Result.maxMemory) (by simp [resultColumns]) (by decide) row hRow⟩

/-- The steps of a row in a typed table are numbers. -/
theorem steps : row.steps.IsNumeric false where
  average := h.numeric ("decisions", Result.decisions) (by simp [resultColumns]) (by decide) row
    hRow
  range := nofun

end Typed

/-- Plans whose charts can be drawn as far as the engine is concerned. -/
def Plan.IsDrawn (plan : Plan) : Prop := plan.IsNumeric ∧ ¬plan.IsFlagged

/-- Charts without ranges only need numbers. -/
theorem Plan.isDrawn_of_not_ranged {plan : Plan} (hRanged : plan.ranged = false)
    (h : ∀ m ∈ plan.measures, m.average.IsNumeric) : plan.IsDrawn := by
  refine ⟨fun m hm => ⟨h m hm, ?_⟩, ?_⟩
  · rw [hRanged]
    exact nofun
  · rintro ⟨hOther, -⟩
    rw [hRanged] at hOther
    cases hOther

namespace Engine.Lawful

variable (h : e.Lawful)

include h

/-- A mean is a number and no flag. -/
theorem mean_isNumeric {cells : List Cell} (hCells : ∀ c ∈ cells, c.IsNumeric) :
    (e.mean cells).IsNumeric ∧ ∀ value, e.mean cells ≠ .flag value := by
  rcases h.mean cells hCells with hMean | ⟨x, hx, hMean⟩
  · rw [hMean]
    exact ⟨Cell.isNumeric_missing, nofun⟩
  · rw [hMean]
    exact ⟨⟨Cell.isDefined_real hx, rfl⟩, nofun⟩

/-- The measure of a group has a bar with a range. -/
theorem isNumeric_of_mean {m : Measured} {averages lows highs : List Cell}
    (hAverages : ∀ c ∈ averages, c.IsNumeric) (hLows : ∀ c ∈ lows, c.IsNumeric)
    (hHighs : ∀ c ∈ highs, c.IsNumeric) (hAverage : m.average = e.mean averages)
    (hLeast : m.least = e.least lows) (hLargest : m.largest = e.largest highs) :
    m.IsNumeric true ∧ ¬m.IsFlagged := by
  obtain ⟨hMean, hNoFlag⟩ := h.mean_isNumeric hAverages
  refine ⟨⟨hAverage ▸ hMean, fun _ => ⟨hLeast ▸ h.least _ hLows, hLargest ▸ h.largest _ hHighs⟩⟩,
    ?_⟩
  rintro ⟨⟨value, hFlag⟩, -⟩
  exact hNoFlag value (hAverage ▸ hFlag)

/-- The charts of all solvers can be drawn. -/
theorem isDrawn_solverPlans (hTyped : Typed rows) (directory : String) :
    ∀ plan ∈ e.solverPlans directory (e.groupsBy Result.solver rows), plan.IsDrawn := by
  have hCells : ∀ group ∈ e.groupsBy Result.solver rows, ∀ key : Result → Cell,
      (∀ row ∈ rows, (key row).IsNumeric) → ∀ c ∈ group.2.map key, c.IsNumeric := by
    intro group hGroup key hKey
    exact List.forall_mem_map.2 fun row hRow => hKey row (mem_of_mem_groupsBy hGroup hRow)
  have hTimes : ∀ group ∈ e.groupsBy Result.solver rows,
      (e.groupTime group).IsNumeric true ∧ ¬(e.groupTime group).IsFlagged := fun group hGroup =>
    h.isNumeric_of_mean (hCells group hGroup _ fun _ hRow => (hTyped.time hRow).average)
      (hCells group hGroup _ fun _ hRow => ((hTyped.time hRow).range rfl).1)
      (hCells group hGroup _ fun _ hRow => ((hTyped.time hRow).range rfl).2) rfl rfl rfl
  have hMemory : ∀ group ∈ e.groupsBy Result.solver rows,
      (e.groupMemory group).IsNumeric true ∧ ¬(e.groupMemory group).IsFlagged := fun group hGroup =>
    h.isNumeric_of_mean (hCells group hGroup _ fun _ hRow => (hTyped.memory hRow).1)
      (hCells group hGroup _ fun _ hRow => (hTyped.memory hRow).2.1)
      (hCells group hGroup _ fun _ hRow => (hTyped.memory hRow).2.2) rfl rfl rfl
  rw [solverPlans]
  simp only [List.forall_mem_cons]
  refine ⟨⟨List.forall_mem_map.2 fun group hGroup => (hTimes group hGroup).1, ?_⟩,
    ⟨List.forall_mem_map.2 fun group hGroup => (hMemory group hGroup).1, ?_⟩,
    Plan.isDrawn_of_not_ranged rfl (List.forall_mem_map.2 fun group hGroup => ?_),
    List.forall_mem_nil _⟩
  · rintro ⟨-, m, hm, hFlag⟩
    obtain ⟨group, hGroup, rfl⟩ := List.mem_map.1 hm
    exact (hTimes group hGroup).2 hFlag
  · rintro ⟨-, m, hm, hFlag⟩
    obtain ⟨group, hGroup, rfl⟩ := List.mem_map.1 hm
    exact (hMemory group hGroup).2 hFlag
  · exact (h.mean_isNumeric
      (hCells group hGroup _ fun _ hRow => (hTyped.steps hRow).average)).1

end Engine.Lawful

/-- The charts of folders are charts of numbers. -/
theorem isNumeric_folderPlans (e : Engine) (directory : String) (hTyped : Typed rows) :
    ∀ plan ∈ (e.groupsBy Result.folder rows).flatMap (folderPlans directory), plan.IsNumeric := by
  refine List.forall_mem_flatMap.2 fun group hGroup => ?_
  have hMember : ∀ row ∈ group.2, row ∈ rows := fun _ => Engine.mem_of_mem_groupsBy hGroup
  rw [folderPlans]
  simp only [List.forall_mem_cons]
  exact ⟨List.forall_mem_map.2 fun row hRow => hTyped.time (hMember row hRow),
    List.forall_mem_map.2 fun row hRow => hTyped.steps (hMember row hRow), List.forall_mem_nil _⟩

/-- If no row has flags as its times, the charts of folders can be drawn. -/
theorem isDrawn_folderPlans (e : Engine) (directory : String) (hTyped : Typed rows)
    (hRange : ∀ row ∈ rows, ¬row.time.IsFlagged) :
    ∀ plan ∈ (e.groupsBy Result.folder rows).flatMap (folderPlans directory), plan.IsDrawn := by
  intro plan hPlan
  refine ⟨isNumeric_folderPlans e directory hTyped plan hPlan, ?_⟩
  rintro ⟨hRanged, m, hm, hFlag⟩
  obtain ⟨group, hGroup, hOne⟩ := List.mem_flatMap.1 hPlan
  rw [folderPlans] at hOne
  rcases List.mem_pair.1 hOne with rfl | rfl
  · obtain ⟨row, hRow, rfl⟩ := List.mem_map.1 hm
    exact hRange row (Engine.mem_of_mem_groupsBy hGroup hRow) hFlag
  · cases hRanged

/-- A row with flags as its times is in a chart that cannot be drawn. -/
theorem exists_isFlagged_folderPlans (directory : String)
    (hFolders : KeysOf e.same (rows.map Result.folder)
      ((e.groupsBy Result.folder rows).map Prod.fst)) {row : Result} (hRow : row ∈ rows)
    (hFlag : row.time.IsFlagged) :
    ∃ plan ∈ (e.groupsBy Result.folder rows).flatMap (folderPlans directory), plan.IsFlagged := by
  obtain ⟨folder, hFolder, hSame⟩ := hFolders.covers row.folder (List.mem_map_of_mem hRow)
  obtain ⟨group, hGroup, rfl⟩ := List.mem_map.1 hFolder
  have hMember : row ∈ group.2 := by
    obtain ⟨k, -, rfl⟩ := List.mem_map.1 hGroup
    exact List.mem_filter.2 ⟨hRow, hSame⟩
  exact ⟨_, List.mem_flatMap.2 ⟨group, hGroup, List.mem_cons_self⟩, rfl, row.time,
    List.mem_map_of_mem hMember, hFlag⟩

/-- All charts that are asked for. -/
def Engine.plans (e : Engine) (directory : String) (rows : List Result) : List Plan :=
  e.solverPlans directory (e.groupsBy Result.solver rows) ++
    (e.groupsBy Result.folder rows).flatMap (folderPlans directory)

/-! ### Charts one after the other -/

/-- Charts that can be drawn are drawn one after the other, up to the first one that is refused. -/
theorem Engine.Lawful.exists_charts (h : e.Lawful) {plans : List Plan}
    (hPlans : ∀ plan ∈ plans, plan.IsDrawn) :
    ∃ charts : List BarChart, List.Forall₂ (BarChart.Follows e) charts plans ∧
      ∀ {ε : Type} (canvas : Canvas ε), plans.mapM (e.barWithRange canvas) =
        (forM charts canvas.draw).mapError .refusal >>= fun _ => .ok charts := by
  induction plans with
  | nil => exact ⟨[], .nil, fun _ => rfl⟩
  | cons plan plans ih =>
      rw [List.forall_mem_cons] at hPlans
      obtain ⟨chart, hFollows, hDraw⟩ := h.exists_chart hPlans.1.1 hPlans.1.2
      obtain ⟨charts, hFollow, hDrawAll⟩ := ih hPlans.2
      refine ⟨chart :: charts, .cons hFollows hFollow, fun canvas => ?_⟩
      rw [List.mapM_cons, hDraw, hDrawAll, List.forM_cons]
      cases canvas.draw chart with
      | error reason => rfl
      | ok _ => cases forM charts canvas.draw <;> rfl

/-- Charts of numbers end early at flags or at a refusal only. -/
theorem Engine.Lawful.endsWith_of_mapM (h : e.Lawful) {plans : List Plan}
    (hPlans : ∀ plan ∈ plans, plan.IsNumeric) {stop : Stop ε}
    (hStop : plans.mapM (e.barWithRange canvas) = .error stop) : canvas.EndsWith stop := by
  obtain ⟨before, plan, after, rfl, -, hPlan⟩ := mapM_eq_error_iff.1 hStop
  exact h.endsWith_of_barWithRange (hPlans plan (by simp)) hPlan

/-! ### Ranges of a negative length -/

theorem exists_mem_iff_of_forall₂ {α β : Type} {p : α → Prop} {q : β → Prop} {xs : List α}
    {ys : List β} (h : List.Forall₂ (fun x y => p x ↔ q y) xs ys) :
    (∃ x ∈ xs, p x) ↔ ∃ y ∈ ys, q y := by
  induction h with
  | nil => simp
  | cons hFirst _ ih => rw [List.exists_mem_cons_iff, List.exists_mem_cons_iff, hFirst, ih]

/-- A bar whose range has a negative length. -/
def Bar.IsNegative (b : Bar) : Prop :=
  b.below.lt (.signed 0) = true ∨ b.above.lt (.signed 0) = true

instance : DecidablePred Bar.IsNegative := fun b =>
  inferInstanceAs (Decidable (b.below.lt (.signed 0) = true ∨ b.above.lt (.signed 0) = true))

/-- Whether the range of a measure has a negative length. -/
def Measured.isNegative (e : Engine) (m : Measured) : Bool :=
  [e.minus m.average m.least, e.minus m.largest m.average].any fun d =>
    d.toOption.any fun d => d.lt (.signed 0)

/-- A bar has a negative range exactly when the measure it shows has. -/
theorem Measured.IsShownBy.isNegative_iff {m : Measured} {b : Bar} (h : m.IsShownBy e true b) :
    b.IsNegative ↔ m.isNegative e = true := by
  obtain ⟨hBelow, hAbove⟩ := h.range rfl
  simp [Bar.IsNegative, Measured.isNegative, hBelow, hAbove, Except.toOption]

/-- Whether a chart that is asked for has a range of a negative length. -/
def Plan.isNegative (e : Engine) (plan : Plan) : Bool :=
  plan.ranged && plan.measures.any (Measured.isNegative e)

/-- A chart has a bar with a negative range exactly when its plan has. -/
theorem BarChart.Follows.isNegative_iff {chart : BarChart} {plan : Plan}
    (h : chart.Follows e plan) :
    (chart.ranged = true ∧ ∃ b ∈ chart.bars, b.IsNegative) ↔ plan.isNegative e = true := by
  rw [Plan.isNegative, Bool.and_eq_true, ← h.ranged]
  refine and_congr_right fun hRanged => ?_
  obtain ⟨ms, hPerm, hShown⟩ := h.shows
  rw [← h.ranged, hRanged] at hShown
  rw [← exists_mem_iff_of_forall₂ (hShown.imp fun _ _ hBar => hBar.isNegative_iff.symm),
    List.any_eq_true]
  exact exists_congr fun m => and_congr_left fun _ => hPerm.mem_iff

end Chart

end SatLab
