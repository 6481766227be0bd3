import SatLab.Proofs.Chart.Engine

/-! The charts of rows, on any canvas and with any engine that does what is documented of engines.
Every row is a bar of the two charts of its folder, every solver is a bar of the three charts of all
solvers, and the comparison has the times of all rows. What is asked for is drawn chart by chart, up
to the first one that the canvas refuses. -/

namespace SatLab

namespace Chart

open Sheet

/-! ### The paths -/

/-- In one directory, charts of different names have different paths. -/
theorem pathIn_injective (directory : String) : Function.Injective (pathIn directory) := by
  intro name name' h
  unfold pathIn at h
  split at h
  · exact (String.append_right_inj _).1 h
  · exact (String.append_right_inj _).1 h

/-- The name of the chart of the times on a folder. -/
def timeName (folder : String) : String := "avg_time_" ++ folder ++ "_log.png"

/-- The name of the chart of the decisions on a folder. -/
def stepsName (folder : String) : String := "avg_decisions_" ++ folder ++ "_log.png"

/-- The names of the charts of all solvers. -/
def solverNames : List String := ["avg_time_log.png", "avg_memory_log.png", "avg_decisions_log.png"]

def comparisonName : String := "solver_comparison_log.png"

/-- The names of all charts. -/
def chartNames (folders : List String) : List String :=
  solverNames ++ folders.flatMap (fun folder => [timeName folder, stepsName folder]) ++
    [comparisonName]

/-- There are four charts of the whole benchmark and two for each folder. -/
theorem length_chartNames (folders : List String) :
    (chartNames folders).length = 4 + 2 * folders.length := by
  simp [chartNames, solverNames]
  omega

theorem timeName_injective : Function.Injective timeName := fun _ _ h =>
  (String.append_right_inj _).1 ((String.append_left_inj _).1 h)

theorem stepsName_injective : Function.Injective stepsName := fun _ _ h =>
  (String.append_right_inj _).1 ((String.append_left_inj _).1 h)

theorem take_timeName (folder : String) : (timeName folder).toList.take 5 = "avg_t".toList := by
  simp [timeName]

theorem take_stepsName (folder : String) : (stepsName folder).toList.take 5 = "avg_d".toList := by
  simp [stepsName]

theorem length_timeName (folder : String) : (timeName folder).length = 17 + folder.length := by
  rw [timeName, String.length_append, String.length_append]
  have : "avg_time_".length = 9 := by decide
  have : "_log.png".length = 8 := by decide
  omega

theorem length_stepsName (folder : String) : (stepsName folder).length = 22 + folder.length := by
  rw [stepsName, String.length_append, String.length_append]
  have : "avg_decisions_".length = 14 := by decide
  have : "_log.png".length = 8 := by decide
  omega

/-- A chart of times never has the name of a chart of steps, whatever the folders are called. -/
theorem timeName_ne_stepsName (folder folder' : String) : timeName folder ≠ stepsName folder' := by
  intro h
  have hTake := take_timeName folder
  rw [h, take_stepsName] at hTake
  exact absurd hTake (by decide)

/-- A fixed name is too short for the name of a folder, or starts in another way. -/
theorem ne_folderName {name : String} (h : name ∈ comparisonName :: solverNames) (folder : String) :
    name ≠ timeName folder ∧ name ≠ stepsName folder := by
  have hFixed : (name.length < 17 ∨ name.toList.take 5 ≠ "avg_t".toList) ∧
      (name.length < 22 ∨ name.toList.take 5 ≠ "avg_d".toList) := by
    revert name
    decide
  constructor
  · rintro rfl
    rcases hFixed.1 with hShort | hStart
    · rw [length_timeName] at hShort
      omega
    · exact hStart (take_timeName folder)
  · rintro rfl
    rcases hFixed.2 with hShort | hStart
    · rw [length_stepsName] at hShort
      omega
    · exact hStart (take_stepsName folder)

/-- Distinct folders give charts of distinct names. -/
theorem nodup_chartNames {folders : List String} (h : folders.Nodup) :
    (chartNames folders).Nodup := by
  have hFolders : (folders.flatMap fun folder => [timeName folder, stepsName folder]).Nodup := by
    rw [List.nodup_flatMap]
    refine ⟨fun folder _ => ?_, h.imp fun hNe => ?_⟩
    · simp [timeName_ne_stepsName]
    · simp [List.disjoint_left, timeName_injective.eq_iff, stepsName_injective.eq_iff, hNe,
        (timeName_ne_stepsName _ _).symm, Function.onFun, eq_comm]
  have hAll : (chartNames folders).Perm (comparisonName :: solverNames ++
      folders.flatMap fun folder => [timeName folder, stepsName folder]) :=
    List.perm_append_singleton ..
  rw [hAll.nodup_iff, List.nodup_append]
  refine ⟨by decide, hFolders, fun name hName name' hName' => ?_⟩
  obtain ⟨folder, -, hOne⟩ := List.mem_flatMap.1 hName'
  obtain ⟨hTime, hSteps⟩ := ne_folderName hName folder
  rcases List.mem_pair.1 hOne with rfl | rfl
  · exact hTime
  · exact hSteps

/-- The names of all charts are different if the folders are shown by different texts, and only
then. -/
theorem nodup_chartNames_iff {folders : List String} :
    (chartNames folders).Nodup ↔ folders.Nodup := by
  refine ⟨fun h => ?_, nodup_chartNames⟩
  rw [chartNames, List.nodup_append, List.nodup_append] at h
  obtain ⟨-, hDisjoint⟩ := List.nodup_flatMap.1 h.1.2.1
  refine hDisjoint.imp fun {a b} hApart hEqual => ?_
  exact List.disjoint_left.1 hApart List.mem_cons_self (hEqual ▸ List.mem_cons_self)

/-! ### Bars -/

/-- A measure of numbers. -/
structure Measured.IsNumeric (ranged : Bool) (m : Measured) : Prop where
  average : m.average.IsNumeric
  range : ranged = true → m.least.IsNumeric ∧ m.largest.IsNumeric

/-- A measure whose number is a flag beside a flag. -/
def Measured.IsFlagged (m : Measured) : Prop :=
  (∃ value, m.average = .flag value) ∧ ∃ other, m.least = .flag other ∨ m.largest = .flag other

/-- A bar that shows a measure. -/
structure Measured.IsShownBy (e : Engine) (ranged : Bool) (m : Measured) (b : Bar) : Prop where
  label : b.label = m.label
  height : b.height = m.average
  range : ranged = true →
    e.minus m.average m.least = .ok b.below ∧ e.minus m.largest m.average = .ok b.above

/-- A chart with one bar for each measure that is asked for, in ascending order. -/
structure BarChart.Follows (e : Engine) (chart : BarChart) (plan : Plan) : Prop where
  ranged : chart.ranged = plan.ranged
  color : chart.color = plan.color
  quantity : chart.quantity = plan.quantity
  title : chart.title = plan.title
  path : chart.path = plan.path
  shows : ∃ ms, ms.Perm plan.measures ∧
    List.Forall₂ (Measured.IsShownBy e plan.ranged) ms chart.bars
  ascends : chart.bars.Pairwise fun a b => MayPrecede a.height b.height

/-- Draws a chart. -/
def Canvas.draw {ε : Type} (canvas : Canvas ε) (chart : BarChart) : Except ε Unit := do
  canvas.bars (chart.bars.map fun b => (b.label, b.height))
  if chart.ranged then canvas.ranges chart.bars
  canvas.save chart

namespace Engine.Lawful

variable {e : Engine} (h : e.Lawful) {ranged : Bool} {m : Measured}

include h

/-- Two numbers have a difference, or they are flags. -/
theorem minus_cases {a b : Cell} (ha : a.IsNumeric) (hb : b.IsNumeric) :
    (∃ d, e.minus a b = .ok d) ∨
      (∃ x y, a = .flag x ∧ b = .flag y) ∧ e.minus a b = .error .flagDifference := by
  by_cases hFlags : (∃ x, a = .flag x) ∧ ∃ y, b = .flag y
  · obtain ⟨⟨x, rfl⟩, y, rfl⟩ := hFlags
    exact .inr ⟨⟨x, y, rfl, rfl⟩, h.minus_flags x y⟩
  · exact .inl (h.minus_numbers ha hb hFlags)

/-- A measure has a bar, or its range is between flags. -/
theorem bar_cases (hm : m.IsNumeric ranged) :
    (∃ b, e.bar ranged m = .ok b ∧ m.IsShownBy e ranged b) ∨
      ranged = true ∧ m.IsFlagged ∧ e.bar ranged m = .error .flagDifference := by
  cases ranged with
  | false => exact .inl ⟨_, rfl, rfl, rfl, nofun⟩
  | true =>
      obtain ⟨hLeast, hLargest⟩ := hm.range rfl
      rcases h.minus_cases hm.average hLeast with ⟨below, hBelow⟩ | ⟨⟨x, y, hx, hy⟩, hBelow⟩
      · rcases h.minus_cases hLargest hm.average with ⟨above, hAbove⟩ | ⟨⟨y, x, hy, hx⟩, hAbove⟩
        · refine .inl ⟨{ label := m.label, height := m.average, below, above }, ?_, rfl, rfl,
            fun _ => ⟨hBelow, hAbove⟩⟩
          simp [bar, hBelow, hAbove, bind, Except.bind, pure, Except.pure]
        · refine .inr ⟨rfl, ⟨⟨x, hx⟩, y, .inr hy⟩, ?_⟩
          simp [bar, hBelow, hAbove, bind, Except.bind]
      · refine .inr ⟨rfl, ⟨⟨x, hx⟩, y, .inl hy⟩, ?_⟩
        simp [bar, hBelow, bind, Except.bind]

/-- Flags have no range. -/
theorem bar_of_isFlagged (hm : m.IsNumeric true) (hFlag : m.IsFlagged) :
    e.bar true m = .error .flagDifference := by
  obtain ⟨⟨x, hx⟩, y, hLeast | hLargest⟩ := hFlag
  · simp [bar, hx, hLeast, h.minus_flags, bind, Except.bind]
  · rcases h.minus_cases hm.average (hm.range rfl).1 with ⟨below, hBelow⟩ | ⟨-, hBelow⟩
    · rw [hx] at hBelow
      simp [bar, hx, hBelow, hLargest, h.minus_flags, bind, Except.bind]
    · simp [bar, hBelow, bind, Except.bind]

end Engine.Lawful

/-! ### Bar charts -/

/-- A chart of numbers. -/
def Plan.IsNumeric (plan : Plan) : Prop := ∀ m ∈ plan.measures, m.IsNumeric plan.ranged

theorem Canvas.draw_chart (canvas : Canvas ε) (plan : Plan) (bars : List Bar) :
    canvas.draw (plan.chart bars) = (do
      canvas.bars (bars.map fun b => (b.label, b.height))
      if plan.ranged then canvas.ranges bars
      canvas.save (plan.chart bars)) := rfl

/-- A chart whose ranges are between flags. -/
def Plan.IsFlagged (plan : Plan) : Prop := plan.ranged = true ∧ ∃ m ∈ plan.measures, m.IsFlagged

/-- A reason for which some operation of a canvas is refused. -/
inductive Canvas.Refuses {ε : Type} (canvas : Canvas ε) (reason : ε) : Prop where
  | bars {bars : List (Cell × Cell)} (h : canvas.bars bars = .error reason)
  | ranges {bars : List Bar} (h : canvas.ranges bars = .error reason)
  | save {chart : BarChart} (h : canvas.save chart = .error reason)
  | compare {comparison : Comparison} (h : canvas.compare comparison = .error reason)

/-- Drawing ends at a range between flags, or because the canvas refuses. -/
inductive Canvas.EndsWith {ε : Type} (canvas : Canvas ε) : Stop ε → Prop where
  | flags : canvas.EndsWith (.fault .flagDifference)
  | refusal {reason : ε} (h : canvas.Refuses reason) : canvas.EndsWith (.refusal reason)

variable {ε : Type} {canvas : Canvas ε} {plan : Plan}

namespace Engine.Lawful

variable {e : Engine} (h : e.Lawful)

include h

/-- The bar drawn for a measure shows it: its label, its height and, where asked for, its range. -/
theorem isShownBy_of_bar {ranged : Bool} {m : Measured} {b : Bar} (hm : m.IsNumeric ranged)
    (hBar : e.bar ranged m = .ok b) : m.IsShownBy e ranged b := by
  rcases h.bar_cases hm with ⟨b', hOther, hShown⟩ | ⟨-, -, hNone⟩
  · rw [hBar] at hOther
    exact Except.ok.inj hOther ▸ hShown
  · rw [hBar] at hNone
    cases hNone

/-- A chart of numbers without flags is drawn with all its bars, as far as the canvas allows. -/
theorem exists_chart (hNumeric : plan.IsNumeric) (hRange : ¬plan.IsFlagged) :
    ∃ chart : BarChart, chart.Follows e plan ∧ ∀ {ε : Type} (canvas : Canvas ε),
      e.barWithRange canvas plan =
        (canvas.draw chart).mapError .refusal >>= fun _ => .ok chart := by
  have hMem : ∀ m ∈ e.ascending plan.measures, m ∈ plan.measures := fun m hm =>
    (h.perm_ascending _).mem_iff.1 hm
  have hBar : ∀ m ∈ e.ascending plan.measures, ∃ b, e.bar plan.ranged m = .ok b := by
    intro m hm
    rcases h.bar_cases (hNumeric m (hMem m hm)) with ⟨b, hb, -⟩ | ⟨hRanged, hFlag, -⟩
    · exact ⟨b, hb⟩
    · exact absurd ⟨hRanged, m, hMem m hm, hFlag⟩ hRange
  obtain ⟨bars, hBars, hAll⟩ := mapM_of_forall hBar
  have hShown : List.Forall₂ (Measured.IsShownBy e plan.ranged) (e.ascending plan.measures) bars :=
    (List.forall₂_iff_get.1 hAll).elim fun hLength hGet => List.forall₂_iff_get.2
      ⟨hLength, fun i hi hi' => h.isShownBy_of_bar (hNumeric _ (hMem _ (List.get_mem _ _)))
        (hGet i hi hi')⟩
  have hHeights : (e.ascending plan.measures).map (fun m => (m.label, m.average)) =
      bars.map fun b => (b.label, b.height) := by
    rw [← List.forall₂_eq_eq_eq, List.forall₂_map_left_iff, List.forall₂_map_right_iff]
    exact hShown.imp fun m b hb => by rw [hb.label, hb.height]
  have hAscend : (bars.map Bar.height).Pairwise MayPrecede := by
    have hSame : (e.ascending plan.measures).map Measured.average = bars.map Bar.height := by
      have hSecond := congrArg (List.map Prod.snd) hHeights
      rwa [List.map_map, List.map_map] at hSecond
    rw [← hSame, List.pairwise_map]
    exact h.pairwise_ascending _ fun m hm => (hNumeric m hm).average
  refine ⟨plan.chart bars, ⟨rfl, rfl, rfl, rfl, rfl, ⟨_, h.perm_ascending _, hShown⟩,
    List.pairwise_map.1 hAscend⟩, fun canvas => ?_⟩
  simp only [barWithRange, hHeights, hBars, Canvas.draw_chart]
  cases canvas.bars (bars.map fun b => (b.label, b.height)) with
  | error reason => rfl
  | ok _ =>
      change (if plan.ranged = true then _ else _) = _
      by_cases hRanged : plan.ranged = true
      · simp only [if_pos hRanged]
        cases canvas.ranges bars with
        | error reason => rfl
        | ok _ =>
            change (canvas.save (plan.chart bars)).mapError Stop.refusal >>= _ = _
            cases canvas.save (plan.chart bars) <;> rfl
      · simp only [if_neg hRanged]
        cases canvas.save (plan.chart bars) <;> rfl

/-- A chart of numbers ends early at flags or at a refusal only. -/
theorem endsWith_of_barWithRange (hNumeric : plan.IsNumeric) {stop : Stop ε}
    (hStop : e.barWithRange canvas plan = .error stop) : canvas.EndsWith stop := by
  rcases bind_eq_error_iff.1 hStop with hBars | ⟨_, -, hRest⟩
  · obtain ⟨reason, hRefused, rfl⟩ := mapError_eq_error_iff.1 hBars
    exact .refusal (.bars hRefused)
  · rcases bind_eq_error_iff.1 hRest with hHeights | ⟨bars, -, hRest⟩
    · obtain ⟨fault, hFault, rfl⟩ := mapError_eq_error_iff.1 hHeights
      obtain ⟨_, m, _, hSplit, -, hBar⟩ := mapM_eq_error_iff.1 hFault
      have hm : m ∈ e.ascending plan.measures := by rw [hSplit]; simp
      rcases h.bar_cases (hNumeric m ((h.perm_ascending _).mem_iff.1 hm)) with
        ⟨b, hb, -⟩ | ⟨-, -, hFlag⟩
      · rw [hBar] at hb
        cases hb
      · rw [hBar] at hFlag
        cases hFlag
        exact .flags
    · have hSaving : ∀ {stop : Stop ε},
          (do (canvas.save (plan.chart bars)).mapError Stop.refusal; return plan.chart bars) =
            .error stop → canvas.EndsWith stop := by
        intro stop hSaving
        rcases bind_eq_error_iff.1 hSaving with hSave | ⟨_, _, ⟨⟩⟩
        obtain ⟨reason, hRefused, rfl⟩ := mapError_eq_error_iff.1 hSave
        exact .refusal (.save hRefused)
      cases hRanged : plan.ranged with
      | false =>
          rw [hRanged] at hRest
          exact hSaving hRest
      | true =>
          rw [hRanged] at hRest
          rcases bind_eq_error_iff.1 hRest with hRanges | ⟨_, -, hRest⟩
          · obtain ⟨reason, hRefused, rfl⟩ := mapError_eq_error_iff.1 hRanges
            exact .refusal (.ranges hRefused)
          · exact hSaving hRest

/-- A chart with a range between flags is not drawn. -/
theorem exists_error_of_isFlagged (canvas : Canvas ε) (hNumeric : plan.IsNumeric)
    (hFlag : plan.IsFlagged) :
    ∃ stop, e.barWithRange canvas plan = .error stop := by
  obtain ⟨hRanged, m, hm, hFlag⟩ := hFlag
  have hBar : e.bar plan.ranged m = .error .flagDifference := by
    have hNumbers := hNumeric m hm
    rw [hRanged] at hNumbers ⊢
    exact h.bar_of_isFlagged hNumbers hFlag
  obtain ⟨_, -, fault, -, hBars⟩ :=
    exists_mapM_eq_error ((h.perm_ascending _).mem_iff.2 hm) hBar
  simp only [barWithRange, hBars]
  cases canvas.bars ((e.ascending plan.measures).map fun m => (m.label, m.average)) with
  | error reason => exact ⟨_, rfl⟩
  | ok _ => exact ⟨_, rfl⟩

end Engine.Lawful

end Chart

end SatLab
