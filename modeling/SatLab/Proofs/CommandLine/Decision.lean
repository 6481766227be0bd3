import SatLab.Proofs.CommandLine.Reading
import SatLab.Proofs.CommandLine.Report

/-! The command line decides the formula it is given, whichever solver is chosen. -/

namespace SatLab

namespace CommandLine

/-- What a run has to leave behind for a formula it has read. -/
structure Outcome.Answers (outcome : Outcome) (o : Options) (f : Formula) : Prop where
  errors_eq : outcome.errors = ""
  of_satisfiable : f.Satisfiable → outcome.exit = 10 ∧
    ∃ model counters, f.satisfiedBy model = true ∧
      outcome.lines = [resultText (some model)] ++ (if o.stats then [counters] else []) ++
        (if o.verify then ["verified: True"] else [])
  of_unsatisfiable : ¬f.Satisfiable → outcome.exit = 20 ∧
    ∃ counters, outcome.lines = ["UNSAT"] ++ (if o.stats then [counters] else [])

/-- The exit status is about the formula alone. -/
theorem Outcome.Answers.exit_congr {outcome second : Outcome} {o p : Options} {f : Formula}
    (h : outcome.Answers o f) (k : second.Answers p f) : outcome.exit = second.exit := by
  by_cases hSatisfiable : f.Satisfiable
  · rw [(h.of_satisfiable hSatisfiable).1, (k.of_satisfiable hSatisfiable).1]
  · rw [(h.of_unsatisfiable hSatisfiable).1, (k.of_unsatisfiable hSatisfiable).1]

namespace Options

variable {o : Options} {f : Formula} {text : String}

/-- A formula given as text is read from the text, since there is no file beside it. -/
theorem readFormula_of_text (hOne : o.OneSource) (hText : o.formula = some text)
    (fileFormula : String → Except FormulaFault Formula) :
    o.readFormula fileFormula = .ok ((Formula.parse text).mapError .syntaxFault) := by
  have hFile : o.file = none := hOne.resolve_left fun hNone => nomatch hText.symm.trans hNone
  rw [readFormula, fileName?, hFile, hText]
  rfl

/-- The report of a true model: the model, the counters if asked for, and the line of the
verification. -/
theorem report_of_model {solved : Solved} {model : Assignment} (hModel : solved.model = some model)
    (hTrue : f.satisfiedBy model = true) :
    o.report f solved = [resultText (some model)] ++
      (if o.stats then [solved.counters] else []) ++
        (if o.verify then ["verified: True"] else []) := by
  simp only [report, hModel, hTrue, if_true]
  rfl

/-- The report without a model has no line of a verification. -/
theorem report_of_none {solved : Solved} (hModel : solved.model = none) :
    o.report f solved = ["UNSAT"] ++ (if o.stats then [solved.counters] else []) := by
  simp only [report, hModel, List.append_nil]
  rfl

/-- A line that is printed on request only. -/
theorem oneLine_of_mem_asked {asked : Bool} {text line : String} (h : OneLine text)
    (hMem : line ∈ if asked then [text] else []) : OneLine line := by
  cases asked with
  | false => cases hMem
  | true => exact List.mem_singleton.1 hMem ▸ h

/-- Each entry of a report is one line of text. -/
theorem report_oneLine {solved : Solved} (hVerdict : f.Verdict solved.model)
    (hNames : ∀ name ∈ f.occurrences, OneLine name) (hCounters : OneLine solved.counters) :
    ∀ line ∈ o.report f solved, OneLine line := by
  intro line hMem
  cases hModel : solved.model with
  | none =>
      rw [report_of_none hModel] at hMem
      rcases List.mem_append.1 hMem with hFirst | hStats
      · rw [List.mem_singleton.1 hFirst]
        decide
      · exact oneLine_of_mem_asked hCounters hStats
  | some model =>
      rw [hModel] at hVerdict
      rw [report_of_model hModel hVerdict.1] at hMem
      rcases List.mem_append.1 hMem with hLines | hVerify
      · rcases List.mem_append.1 hLines with hFirst | hStats
        · rw [List.mem_singleton.1 hFirst]
          apply oneLine_resultText
          rintro _ ⟨⟩ name hName
          exact hNames name (hVerdict.2 name hName)
        · exact oneLine_of_mem_asked hCounters hStats
      · exact oneLine_of_mem_asked (by decide) hVerify

/-- The outcome of a run whose solver gave an answer. -/
def answered (o : Options) (f : Formula) (solved : Solved) : Outcome :=
  { exit := if solved.model.isSome then Outcome.satisfiable else Outcome.unsatisfiable,
    output := String.join ((o.report f solved).map (· ++ "\n")), errors := "" }

/-- A formula that is read and solved is answered. -/
theorem run_of_solved {name : SolverName} {solved : Solved}
    {fileFormula : String → Except FormulaFault Formula}
    (hRead : o.readFormula fileFormula = .ok (.ok f)) (hSolver : o.solver = some name)
    (hSolve : name.solve f = .ok solved) : o.run fileFormula = .ok (o.answered f solved) := by
  rw [run, bind_eq_ok_iff]
  refine ⟨.ok f, hRead, ?_⟩
  simp only [hSolver]
  rw [bind_eq_ok_iff]
  exact ⟨solved, by rw [hSolve]; rfl, rfl⟩

/-- An answer that fits the formula tells whether it is satisfiable. -/
theorem answered_answers {solved : Solved} (hVerdict : f.Verdict solved.model)
    (hNames : ∀ name ∈ f.occurrences, OneLine name) (hCounters : OneLine solved.counters) :
    (o.answered f solved).Answers o f := by
  have hLines : (o.answered f solved).lines = o.report f solved :=
    Outcome.lines_printed (report_oneLine hVerdict hNames hCounters) _ _
  cases hModel : solved.model with
  | none =>
      rw [hModel] at hVerdict
      refine ⟨rfl, fun hSatisfiable => (hVerdict hSatisfiable).elim, fun _ => ?_⟩
      refine ⟨by rw [answered, hModel]; rfl, solved.counters, ?_⟩
      rw [hLines, report_of_none hModel]
  | some model =>
      rw [hModel] at hVerdict
      have hSatisfiable := Formula.satisfiable_of_satisfiedBy hVerdict.1
      refine ⟨rfl, fun _ => ?_, fun hUnsatisfiable => (hUnsatisfiable hSatisfiable).elim⟩
      refine ⟨by rw [answered, hModel]; rfl, model, solved.counters, hVerdict.1, ?_⟩
      rw [hLines, report_of_model hModel hVerdict.1]

end Options

variable {arguments : List String} {o : Options} {text : String}

theorem run_of_solve (h : Request.ofArguments arguments = .ok (.solve o))
    (fileFormula : String → Except FormulaFault Formula) :
    run fileFormula arguments = o.run fileFormula := by
  rw [run, h]

/-- A formula in the arguments is answered with a report, and the exit status tells whether it is
satisfiable. -/
theorem run_answers_text {f : Formula} {name : SolverName}
    (hRequest : Request.ofArguments arguments = .ok (.solve o)) (hText : o.formula = some text)
    (hSolver : o.solver = some name) (hSpelled : f.SpelledBy text)
    (fileFormula : String → Except FormulaFault Formula) :
    ∃ outcome, run fileFormula arguments = .ok outcome ∧ outcome.Answers o f := by
  have hParse := Formula.parse_ok_iff_spelledBy.2 hSpelled
  have hRead := Options.readFormula_of_text (Request.oneSource hRequest) hText fileFormula
  rw [hParse] at hRead
  have hNames : ∀ name ∈ f.occurrences, OneLine name := fun name hName hFeed =>
    absurd (hSpelled.not_isBlank hName '\n' hFeed) (by decide)
  obtain ⟨solved, hSolve, hVerdict, hCounters⟩ := name.exists_solved f
  rw [run_of_solve hRequest]
  exact ⟨_, Options.run_of_solved hRead hSolver hSolve,
    Options.answered_answers hVerdict hNames hCounters⟩

/-- A text that spells no formula ends the run with status 1 and the reason among the errors. -/
theorem run_unreadable (hRequest : Request.ofArguments arguments = .ok (.solve o))
    (hText : o.formula = some text) (hNone : ¬∃ f : Formula, f.SpelledBy text)
    (fileFormula : String → Except FormulaFault Formula) :
    ∃ reason, run fileFormula arguments =
      .ok { exit := 1, output := "", errors := "error: " ++ reason ++ "\n" } := by
  have hRead := Options.readFormula_of_text (Request.oneSource hRequest) hText fileFormula
  cases hParse : Formula.parse text with
  | ok f => exact (hNone ⟨f, Formula.parse_ok_iff_spelledBy.1 hParse⟩).elim
  | error fault =>
      rw [hParse] at hRead
      refine ⟨fault.message, ?_⟩
      rw [run_of_solve hRequest, Options.run, hRead]
      rfl

/-- For a text that spells no formula the run reports an error. Otherwise it decides whether the
formula is satisfiable, shows a model if there is one, and finds the model verified. Another choice
of solver leads to the same exit status. -/
theorem run_decides {name : SolverName} (hRequest : Request.ofArguments arguments = .ok (.solve o))
    (hText : o.formula = some text) (hSolver : o.solver = some name)
    (fileFormula : String → Except FormulaFault Formula) :
    ((¬∃ f : Formula, f.SpelledBy text) → ∃ reason, run fileFormula arguments =
      .ok { exit := 1, output := "", errors := "error: " ++ reason ++ "\n" }) ∧
    (∀ f : Formula, f.SpelledBy text → Formula.parse text = .ok f ∧
      ∃ outcome, run fileFormula arguments = .ok outcome ∧ outcome.Answers o f) ∧
    ∀ (others : List String) (p : Options) (other : SolverName),
      Request.ofArguments others = .ok (.solve p) → p.formula = some text →
      p.solver = some other → ∃ outcome second, run fileFormula arguments = .ok outcome ∧
        run fileFormula others = .ok second ∧ outcome.exit = second.exit := by
  refine ⟨fun hNone => run_unreadable hRequest hText hNone fileFormula, ?_, ?_⟩
  · intro f hSpelled
    exact ⟨Formula.parse_ok_iff_spelledBy.2 hSpelled,
      run_answers_text hRequest hText hSolver hSpelled fileFormula⟩
  · intro others p other hOthers hSame hOther
    by_cases hSpelled : ∃ f : Formula, f.SpelledBy text
    · obtain ⟨f, hSpelled⟩ := hSpelled
      obtain ⟨outcome, hRun, hAnswers⟩ :=
        run_answers_text hRequest hText hSolver hSpelled fileFormula
      obtain ⟨second, hSecond, hSecondAnswers⟩ :=
        run_answers_text hOthers hSame hOther hSpelled fileFormula
      exact ⟨outcome, second, hRun, hSecond, hAnswers.exit_congr hSecondAnswers⟩
    · obtain ⟨reason, hRun⟩ := run_unreadable hRequest hText hSpelled fileFormula
      obtain ⟨again, hSecond⟩ := run_unreadable hOthers hSame hSpelled fileFormula
      exact ⟨_, _, hRun, hSecond, rfl⟩

/-- One clause that fixes a variable and one that passes the value on. -/
def chainText : String := "\x7ba\x7d,\x7b-a,b\x7d"

/-- A literal with a name of one letter. -/
def letter (dashes : Nat) (c : Char) (h : c ∉ structureChars) : LiteralSpelling :=
  ⟨dashes, [c], List.cons_ne_nil c [], List.forall_mem_singleton.2 h⟩

def chainSpelling : Spelling :=
  [[letter 0 'a' (by decide)], [letter 1 'a' (by decide), letter 0 'b' (by decide)]]

def chainOptions : Options :=
  { formula := some chainText, file := none, solver := some .brute, stats := false, verify := true }

theorem run_decides_chain :
    Request.ofArguments [chainText, "--solver", "brute", "--verify"] = .ok (.solve chainOptions) ∧
      ∃ outcome model, run (fun _ => .ok []) [chainText, "--solver", "brute", "--verify"] =
          .ok outcome ∧ outcome.exit = 10 ∧ chainSpelling.formula.satisfiedBy model = true ∧
        outcome.lines = [resultText (some model), "verified: True"] := by
  have hRequest : Request.ofArguments [chainText, "--solver", "brute", "--verify"] =
      .ok (.solve chainOptions) := by rfl
  have hSpelled : chainSpelling.formula.SpelledBy chainText := ⟨chainSpelling, by decide, rfl⟩
  have hSatisfiable : chainSpelling.formula.Satisfiable := ⟨fun _ => true, rfl⟩
  obtain ⟨outcome, hRun, hAnswers⟩ := ((run_decides hRequest rfl rfl _).2.1 _ hSpelled).2
  obtain ⟨hExit, model, _, hTrue, hLines⟩ := hAnswers.of_satisfiable hSatisfiable
  exact ⟨hRequest, outcome, model, hRun, hExit, hTrue, hLines⟩

end CommandLine

end SatLab
