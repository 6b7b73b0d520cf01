import Lox.Proofs.Running

/-! A reporter that is used again and again. Short of a reset, all that can happen to one is that
more is reported, so its exit code, its diagnostics and its flag agree after every history. A run
with a reporter that is not empty goes no further than its scan. -/

namespace Lox.Proofs

section
variable {before middle after : Reporter}

/-- `Grows before after`: reports, and nothing else, lead from one state of a reporter to the other. -/
inductive Grows (before : Reporter) : Reporter → Prop where
  | same : Grows before before
  | report {after : Reporter} (earlier : Grows before after) (d : Diagnostic) (code : ExitCode) :
      Grows before (after.report d code)

theorem Grows.record (grows : Grows before after) (problem : Problem) : Grows before (after.record problem) :=
  .report grows _ _

theorem Grows.recordAll (grows : Grows before after) (problems : List Problem) :
    Grows before (after.recordAll problems) := by
  induction problems generalizing after with
  | nil => exact grows
  | cons problem problems ih => exact ih (grows.record problem)

theorem Grows.appends (grows : Grows before after) : before.diagnostics <+: after.diagnostics := by
  induction grows with
  | same => exact List.prefix_refl _
  | report _ d code ih => exact ih.trans (List.prefix_append _ _)

/-- There is an exit code exactly if there is something to report, and then the flag is up. -/
structure Consistent (reporter : Reporter) : Prop where
  code : reporter.exitCode = none ↔ reporter.diagnostics = []
  flag : reporter.diagnostics = [] ↔ reporter.hadError = false

theorem consistent_empty : Consistent {} := ⟨by decide, by decide⟩

theorem Grows.consistent (grows : Grows before after) (consistent : Consistent before) : Consistent after := by
  induction grows with
  | same => exact consistent
  | report _ d code _ => exact ⟨by simp [Reporter.report], by simp [Reporter.report, Reporter.hadError]⟩

end

theorem attempt_grows (parser : Parser) (reporter : Reporter) : Grows reporter (parser.attempt reporter).2.2 := by
  unfold Parser.attempt
  split
  · exact .same
  · exact .same
  · exact Grows.same.record _

theorem Runs.grows {reporter : Reporter} {source : String} {run : Run} (runs : Runs reporter source run) :
    Grows reporter run.reporter := by
  cases runs with
  | scanFailed => exact Grows.same.recordAll _
  | parseFailed | evalFailed => exact Grows.same.record _
  | evaluated => exact .same

/-- What one can do with a reporter. The tokens that are parsed were scanned with another one. -/
inductive Use where
  | error (line : Int) (message : String) (stage : Stage) (code : ExitCode)
  | report (line : Int) (location message : String) (stage : Stage) (code : ExitCode)
  | scanError (message : String) (line : Option Int)
  | parseError (message : String) (line : Option Int) (location : String)
  | runtimeError (message : String) (line : Option Int)
  | scan (source : String)
  | parse (source : String)
  | run (source : String)
  | reset

def Use.perform (reporter : Reporter) : Use → Reporter
  | .error line message stage code => reporter.report ⟨stage, line, "", message⟩ code
  | .report line location message stage code => reporter.report ⟨stage, line, location, message⟩ code
  | .scanError message line => reporter.record ⟨.scan, message, line, ""⟩
  | .parseError message line location => reporter.record ⟨.parse, message, line, location⟩
  | .runtimeError message line => reporter.record ⟨.runtime, message, line, ""⟩
  | .scan source => reporter.recordAll (Lox.scan source).problems
  | .parse source => (Parser.attempt { tokens := (Lox.scan source).tokens } reporter).2.2
  | .run source => (runWith reporter source).reporter
  | .reset => reporter.reset

/-- A reporter that was empty at first, after some uses. -/
def history (uses : List Use) : Reporter := uses.foldl Use.perform {}

theorem Use.grows {use : Use} (kept : use ≠ .reset) (reporter : Reporter) :
    Grows reporter (use.perform reporter) := by
  cases use with
  | error | report => exact .report .same _ _
  | scanError | parseError | runtimeError => exact Grows.same.record _
  | scan => exact Grows.same.recordAll _
  | parse => exact attempt_grows _ _
  | run source => exact (runWith_runs reporter source).grows
  | reset => exact absurd rfl kept

theorem Use.consistent (use : Use) {reporter : Reporter} (consistent : Consistent reporter) :
    Consistent (use.perform reporter) := by
  by_cases reset : use = .reset
  · rw [reset]
    exact consistent_empty
  · exact (use.grows reset reporter).consistent consistent

theorem history_append (uses : List Use) (use : Use) : history (uses ++ [use]) = use.perform (history uses) := by
  simp [history]

theorem consistent_foldl (uses : List Use) {reporter : Reporter} (consistent : Consistent reporter) :
    Consistent (uses.foldl Use.perform reporter) := by
  induction uses generalizing reporter with
  | nil => exact consistent
  | cons use uses ih => exact ih (use.consistent consistent)

section
variable {reporter : Reporter} {source : String} {run : Run}

theorem failureCode_ne_zero (reporter : Reporter) : reporter.failureCode.code ≠ 0 := by
  unfold Reporter.failureCode
  split
  · decide
  · decide
  next code success _ =>
    cases code with
    | ok => exact absurd rfl success
    | usage | badData | noInput => decide

theorem failed_not_ok (some : reporter.diagnostics ≠ []) : (Outcome.failed reporter).ok ≠ true :=
  fun fine => some (outcome_ok_iff.mp fine).1

theorem failed_ok_iff (some : reporter.diagnostics ≠ []) :
    (Outcome.failed reporter).ok = true ↔ (Outcome.failed reporter).exitCode.code = 0 :=
  iff_of_false (failed_not_ok some) (failureCode_ne_zero reporter)

theorem Runs.ok_iff (runs : Runs reporter source run) :
    run.outcome.ok = true ↔ run.outcome.exitCode.code = 0 := by
  cases runs with
  | scanFailed found =>
    rw [← recordAll_scan] at found
    exact failed_ok_iff found
  | parseFailed | evalFailed =>
    apply failed_ok_iff
    simp [Reporter.record, Reporter.report]
  | evaluated => exact iff_of_true rfl rfl

/-- The events of a run before there is anything to parse. -/
def Early : Event → Prop
  | .scanned _ _ | .scanFailed _ => True
  | .parsed _ | .parseFailed _ | .evaluated _ => False

/-- A run that goes no further than its scan, whose faults it adds to what was reported before. -/
structure Stopped (reporter : Reporter) (source : String) (run : Run) : Prop where
  early : ∀ event ∈ run.events, Early event
  value : run.outcome.value = .nil
  code : run.outcome.exitCode.code ≠ 0
  diagnostics : run.outcome.diagnostics = reporter.diagnostics ++ (scan source).problems.map .ofProblem
  kept : run.reporter.diagnostics = run.outcome.diagnostics

theorem Runs.stopped (runs : Runs reporter source run) (held : reporter.diagnostics ≠ []) :
    Stopped reporter source run := by
  cases runs with
  | scanFailed _ =>
    refine ⟨?_, rfl, failureCode_ne_zero _, recordAll_diagnostics _ _, rfl⟩
    intro event member
    simp only [List.mem_cons, List.not_mem_nil, or_false] at member
    rcases member with rfl | rfl <;> trivial
  | parseFailed silent | evalFailed silent | evaluated silent => exact absurd silent held

end

/-- After any history the exit code, the diagnostics and the flag of a reporter agree, nothing but a
reset takes a diagnostic away, and a run tells success by its exit code. If there are diagnostics
before the run, it stops at its scan. -/
theorem history_consistent (uses : List Use) :
    ((history uses).exitCode = none ↔ (history uses).diagnostics = []) ∧
    ((history uses).diagnostics = [] ↔ (history uses).hadError = false) ∧
    (∀ use, use ≠ .reset → (history uses).diagnostics <+: (history (uses ++ [use])).diagnostics) ∧
    (∀ source, (runWith (history uses) source).outcome.ok = true ↔
      (runWith (history uses) source).outcome.exitCode.code = 0) ∧
    (∀ source, (history uses).diagnostics ≠ [] →
      Stopped (history uses) source (runWith (history uses) source)) := by
  have consistent : Consistent (history uses) := consistent_foldl uses consistent_empty
  refine ⟨consistent.code, consistent.flag, ?_, ?_, ?_⟩
  · intro use kept
    rw [history_append]
    exact (use.grows kept _).appends
  · intro source
    exact (runWith_runs _ source).ok_iff
  · intro source held
    exact (runWith_runs _ source).stopped held

/-- A failed run, then a report that claims success. -/
def excused : List Use := [.run "!nil", .error 0 "later" .runtime .ok]

/-- The next run fails by what was reported before it, and its own two faults come after that. -/
theorem run_excused :
    (history excused).exitCode = some .ok ∧ (history excused).diagnostics ≠ [] ∧
      (runWith (history excused) "1 @\n# 2").outcome.value = .nil ∧
      (runWith (history excused) "1 @\n# 2").outcome.exitCode.code ≠ 0 ∧
      (runWith (history excused) "1 @\n# 2").outcome.diagnostics = [
        ⟨.runtime, 1, "", "Cannot perform 'Not' on operand 'nil'"⟩, ⟨.runtime, 0, "", "later"⟩,
        ⟨.scan, 1, "", "Unrecognized character: @"⟩, ⟨.scan, 2, "", "Unrecognized character: #"⟩] := by
  have held : (history excused).diagnostics ≠ [] := by decide +kernel
  have stopped := (history_consistent excused).2.2.2.2 "1 @\n# 2" held
  refine ⟨rfl, held, stopped.value, stopped.code, stopped.diagnostics.trans ?_⟩
  decide +kernel

end Lox.Proofs
