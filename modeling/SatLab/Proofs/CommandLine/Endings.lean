import SatLab.Proofs.CommandLine.Decision

/-! How a run of the command line can end, whatever its arguments and the files are. Every run ends
with one of the documented exit statuses, but for two requests: a file with the empty name, and a
formula without a solver. -/

namespace SatLab

namespace CommandLine

/-- An outcome with a documented exit status and the text that belongs to it. -/
inductive Outcome.Documented : Outcome → Prop where
  | helped : Documented { exit := 0, output := help, errors := "" }
  | misused (reason : String) :
      Documented
        { exit := 2, output := "", errors := usage ++ "main.py: error: " ++ reason ++ "\n" }
  | unreadable (reason : String) :
      Documented { exit := 1, output := "", errors := "error: " ++ reason ++ "\n" }
  | satisfiable (model : Assignment) (more : String) :
      Documented { exit := 10, output := resultText (some model) ++ "\n" ++ more, errors := "" }
  | unsatisfiable (more : String) :
      Documented { exit := 20, output := resultText none ++ "\n" ++ more, errors := "" }

/-- A formula is given as text or in a file. -/
def Options.HasSource (o : Options) : Prop := o.formula.isSome ∨ o.file.isSome

namespace Reading

/-- A request to solve is made only when all arguments are read. -/
theorem exists_finish {r : Reading} {arguments : List Argument} {o : Options}
    (h : r.readFrom arguments = .ok (.solve o)) :
    ∃ last : Reading, last.finish = .ok (.solve o) := by
  fun_induction readFrom r arguments with
  | case1 r => exact ⟨r, h⟩
  | case3 | case6 | case9 => cases h
  | case2 _ _ _ ih | case5 _ _ _ _ _ _ ih | case7 _ _ _ _ _ _ ih | case11 _ _ _ _ ih
  | case13 _ _ _ _ _ ih | case15 _ _ _ _ ih | case17 _ _ _ _ ih | case18 _ _ _ _ ih => exact ih h
  | case10 =>
      obtain ⟨_, _, hHelp⟩ := bind_eq_ok_iff.1 h
      cases hHelp
  | case4 _ _ _ _ _ _ ih | case8 _ _ _ _ _ ih | case12 _ _ _ _ ih | case14 _ _ _ _ _ ih
  | case16 _ _ _ _ ih =>
      obtain ⟨next, _, hRest⟩ := bind_eq_ok_iff.1 h
      exact ih next hRest

/-- Arguments are accepted only with a formula or a file. -/
theorem finish_hasSource {r : Reading} {o : Options} (h : r.finish = .ok (.solve o)) :
    o.HasSource := by
  rw [finish] at h
  split at h
  · cases h
  · next hSource =>
      split at h
      · cases h
        cases hText : r.options.formula with
        | some text => exact .inl (by rw [hText]; rfl)
        | none =>
            cases hFile : r.options.file with
            | some name => exact .inr (by rw [hFile]; rfl)
            | none => exact absurd (by rw [hText, hFile]; rfl) hSource
      · cases h

end Reading

/-- Arguments that ask for a solution name something to solve. -/
theorem Request.hasSource {arguments : List String} {o : Options}
    (h : ofArguments arguments = .ok (.solve o)) : o.HasSource := by
  obtain ⟨_, _, hRead⟩ := bind_eq_ok_iff.1 h
  obtain ⟨last, hLast⟩ := Reading.exists_finish hRead
  exact Reading.finish_hasSource hLast

namespace Options

variable {o : Options} {f : Formula} {fileFormula : String → Except FormulaFault Formula}

/-- The file with the empty name is no file, and there is no text beside it. -/
theorem readFormula_of_emptyName (hOne : o.OneSource) (hFile : o.file = some "") :
    o.readFormula fileFormula = .error .noFormula := by
  have hText : o.formula = none := hOne.resolve_right (by simp [hFile])
  rw [readFormula, fileName?, hFile, hText]
  rfl

/-- Unless the path of the file is empty, reading the formula gives a formula or a fault that is
reported. -/
theorem exists_readFormula (hSource : o.HasSource) (hFile : o.file ≠ some "") :
    ∃ read, o.readFormula fileFormula = .ok read := by
  rw [readFormula]
  cases hName : o.fileName? with
  | some path => exact ⟨_, rfl⟩
  | none =>
      cases hText : o.formula with
      | some text => exact ⟨_, rfl⟩
      | none =>
          obtain ⟨name, hSome⟩ := Option.isSome_iff_exists.1
            (hSource.resolve_left (by simp [hText]))
          have hEmpty : name = "" := by simpa [fileName?, hSome] using hName
          exact absurd (hSome.trans (congrArg some hEmpty)) hFile

/-- An answer has a documented exit status. -/
theorem answered_documented {solved : Solved} : (o.answered f solved).Documented := by
  have hOutput : ∃ more, (o.answered f solved).output = resultText solved.model ++ "\n" ++ more :=
    ⟨_, by rw [answered, report, List.append_assoc, List.singleton_append, List.map_cons,
      String.join_cons]⟩
  obtain ⟨more, hMore⟩ := hOutput
  have hOutcome : o.answered f solved =
      { exit := if solved.model.isSome then 10 else 20, output := (o.answered f solved).output,
        errors := "" } := rfl
  rw [hOutcome, hMore]
  cases solved.model with
  | some model => exact .satisfiable model more
  | none => exact .unsatisfiable more

/-- Where the option's value is no solver, a formula that is read has no answer. -/
theorem run_of_noSolver (hRead : o.readFormula fileFormula = .ok (.ok f))
    (hSolver : o.solver = none) : o.run fileFormula = .error .noSolver := by
  rw [run, hRead]
  simp only [bind, Except.bind, hSolver]
  rfl

/-- Once the formula is looked for, only a missing solver stops the run. -/
theorem run_documented {read : Except FormulaFault Formula}
    (hRead : o.readFormula fileFormula = .ok read) (hSolver : o.solver = none → ∀ f, read ≠ .ok f) :
    ∃ outcome, o.run fileFormula = .ok outcome ∧ outcome.Documented := by
  cases read with
  | error fault =>
      refine ⟨_, ?_, .unreadable fault.message⟩
      rw [run, hRead]
      rfl
  | ok f =>
      obtain ⟨name, hName⟩ := Option.ne_none_iff_exists'.1 fun hNone => hSolver hNone f rfl
      obtain ⟨solved, hSolve, -, -⟩ := name.exists_solved f
      exact ⟨_, run_of_solved hRead hName hSolve, answered_documented⟩

end Options

/-- The arguments ask for the formula of a file without a name. -/
def NamelessFile (arguments : List String) : Prop :=
  ∃ o, Request.ofArguments arguments = .ok (.solve o) ∧ o.file = some ""

/-- There is a formula to solve, but the value of the solver is no value. -/
def SolverMissing (files : FileTree) (arguments : List String) : Prop :=
  ∃ o f, Request.ofArguments arguments = .ok (.solve o) ∧ o.solver = none ∧
    o.readFormula (Formula.ofFile files) = .ok (.ok f)

variable {files : FileTree} {arguments : List String}

theorem runIn_namelessFile (h : NamelessFile arguments) :
    runIn files arguments = .error .noFormula := by
  obtain ⟨o, hRequest, hFile⟩ := h
  rw [runIn, run_of_solve hRequest, Options.run,
    Options.readFormula_of_emptyName (Request.oneSource hRequest) hFile]
  rfl

theorem runIn_solverMissing (h : SolverMissing files arguments) :
    runIn files arguments = .error .noSolver := by
  obtain ⟨o, f, hRequest, hSolver, hRead⟩ := h
  rw [runIn, run_of_solve hRequest, Options.run_of_noSolver hRead hSolver]

/-- Apart from the empty path and the missing solver, every run ends with a documented status. -/
theorem runIn_documented (hName : ¬NamelessFile arguments)
    (hSolver : ¬SolverMissing files arguments) :
    ∃ outcome, runIn files arguments = .ok outcome ∧ outcome.Documented := by
  rw [runIn]
  cases hRequest : Request.ofArguments arguments with
  | error fault =>
      refine ⟨_, ?_, .misused fault.message⟩
      rw [run, hRequest]
      rfl
  | ok request =>
      cases request with
      | help => exact ⟨_, by rw [run, hRequest], .helped⟩
      | solve o =>
          have hNamed : o.file ≠ some "" := fun hFile => hName ⟨o, hRequest, hFile⟩
          obtain ⟨read, hRead⟩ : ∃ read, o.readFormula (Formula.ofFile files) = .ok read :=
            Options.exists_readFormula (Request.hasSource hRequest) hNamed
          rw [run_of_solve hRequest]
          refine Options.run_documented hRead fun hNone f hOk => hSolver ⟨o, f, hRequest, hNone, ?_⟩
          rw [hRead, hOk]

/-- A run ends with a documented outcome unless it is asked for a file without a name, or there is
a formula and no solver for it. In these two cases it is left by a fault of its own. An empty value
asks for a file without a name in every release; that a lone double dash does so as well, or leaves
no solver, is a matter of the release that is followed. Files outside the tree are missing here, and
a missing file is a documented outcome. -/
theorem runIn_documented_iff (files : FileTree) (arguments : List String) :
    ((∃ outcome, runIn files arguments = .ok outcome ∧ outcome.Documented) ↔
      ¬NamelessFile arguments ∧ ¬SolverMissing files arguments) ∧
    (NamelessFile arguments → runIn files arguments = .error .noFormula) ∧
    (SolverMissing files arguments → runIn files arguments = .error .noSolver) := by
  refine ⟨⟨?_, fun h => runIn_documented h.1 h.2⟩, runIn_namelessFile, runIn_solverMissing⟩
  rintro ⟨outcome, hRun, -⟩
  refine ⟨fun hName => ?_, fun hSolver => ?_⟩
  · rw [runIn_namelessFile hName] at hRun
    cases hRun
  · rw [runIn_solverMissing hSolver] at hRun
    cases hRun

/-- An empty value of the option for a file leaves the run without a formula. -/
theorem runIn_emptyName_undocumented : ¬∀ (files : FileTree) (arguments : List String),
    ∃ outcome, runIn files arguments = .ok outcome ∧ outcome.Documented := by
  intro hAll
  obtain ⟨outcome, hRun, -⟩ := hAll ∅ ["--file", ""]
  have hFault : runIn ∅ ["--file", ""] = .error .noFormula := rfl
  rw [hFault] at hRun
  cases hRun

end CommandLine

end SatLab
