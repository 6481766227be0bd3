import SatLab.CommandLine.Options
import SatLab.Proofs.Fallible

/-! Reading the arguments from the left keeps the two sources of a formula apart. -/

namespace SatLab

namespace CommandLine

/-- A formula is given as text or in a file, never both. -/
def Options.OneSource (o : Options) : Prop := o.formula = none ∨ o.file = none

namespace Reading

variable {r next : Reading} {o : Options}

theorem oneSource_start : start.options.OneSource := .inl rfl

/-- A formula in the arguments is refused next to a file. -/
theorem setFormula_oneSource {text : String} (h : r.setFormula text = .ok next) :
    next.options.OneSource := by
  rw [setFormula] at h
  split at h
  · cases h
  · next hFile =>
      cases h
      exact .inr (Option.not_isSome_iff_eq_none.1 hFile)

/-- An option's value never gives a second source. -/
theorem setValue_oneSource (hOne : r.options.OneSource) {option : Opt} {value : String}
    (h : r.setValue option value = .ok next) : next.options.OneSource := by
  unfold setValue at h
  split at h
  · split at h
    · cases h
    · next hFormula =>
        cases h
        exact .inl (Option.not_isSome_iff_eq_none.1 hFormula)
  · split at h
    · cases h
      exact hOne
    · cases h
  · cases h

/-- A value attached to its option never gives a second source. -/
theorem setAttached_oneSource (hOne : r.options.OneSource) {option : Opt} {value : String}
    (h : r.setAttached option value = .ok next) : next.options.OneSource := by
  unfold setAttached at h
  split at h
  · split at h
    · cases h
      exact hOne
    · exact setValue_oneSource hOne h
  · exact setValue_oneSource hOne h

theorem setFlag_oneSource (hOne : r.options.OneSource) (option : Opt) :
    (r.setFlag option).options.OneSource := by
  unfold setFlag
  split <;> exact hOne

theorem finish_oneSource (hOne : r.options.OneSource) (h : r.finish = .ok (.solve o)) :
    o.OneSource := by
  rw [finish] at h
  split at h
  · cases h
  · split at h
    · cases h
      exact hOne
    · cases h

/-- By induction on the arguments, at most one source of the formula is ever taken. -/
theorem readFrom_oneSource {arguments : List Argument} (hOne : r.options.OneSource)
    (h : r.readFrom arguments = .ok (.solve o)) : o.OneSource := by
  -- Only a formula or the value of an option touches a source; all other arguments pass it on.
  fun_induction readFrom r arguments with
  | case1 => exact finish_oneSource hOne h
  | case3 | case6 | case9 => cases h
  | case2 _ _ _ ih | case11 _ _ _ _ ih | case13 _ _ _ _ _ ih | case15 _ _ _ _ ih
  | case17 _ _ _ _ ih | case18 _ _ _ _ ih => exact ih hOne h
  | case5 r opt value rest hHelp hFlag ih => exact ih (setFlag_oneSource hOne opt) h
  | case7 r opt rest hHelp hLast hFlag ih => exact ih (setFlag_oneSource hOne opt) h
  | case4 r opt value rest hHelp hValue ih =>
      obtain ⟨next, hNext, hRest⟩ := bind_eq_ok_iff.1 h
      exact ih next (setValue_oneSource hOne hNext) hRest
  | case8 r opt value rest hValue ih =>
      obtain ⟨next, hNext, hRest⟩ := bind_eq_ok_iff.1 h
      exact ih next (setAttached_oneSource hOne hNext) hRest
  | case10 r more rest =>
      obtain ⟨_, _, hHelp⟩ := bind_eq_ok_iff.1 h
      cases hHelp
  | case12 r text rest hNew ih | case14 r text rest hLast hNew ih | case16 r text rest hNew ih =>
      obtain ⟨next, hNext, hRest⟩ := bind_eq_ok_iff.1 h
      exact ih next (setFormula_oneSource hNext) hRest

end Reading

/-- No arguments ask for a text and a file at once. -/
theorem Request.oneSource {arguments : List String} {o : Options}
    (h : ofArguments arguments = .ok (.solve o)) : o.OneSource := by
  obtain ⟨_, _, hRead⟩ := bind_eq_ok_iff.1 h
  exact Reading.readFrom_oneSource Reading.oneSource_start hRead

end CommandLine

end SatLab
