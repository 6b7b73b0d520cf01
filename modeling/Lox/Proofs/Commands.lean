import Lox.Cli.Command
import Lox.Proofs.Endings
import Lox.Proofs.Reporting
import Lox.Proofs.Sessions

/-! Three commands on one source: `tokens` scans it, `ast` scans and parses it, `run` evaluates it as
well. Each decides for itself when to stop and what to exit with; yet they go wrong together, up to
the stage that a command has, and then say the same. -/

namespace Lox.Proofs
open Cli

/-- The events of a run up to its tree. -/
def ofReading : Event → Bool
  | .scanned _ _ | .parsed _ | .parseFailed _ => true
  | .scanFailed _ | .evaluated _ => false

def readLog (style : SessionStyle) (run : Run) : List Emission :=
  Console.log style.logging style.stamp ((run.events.filter ofReading).map Event.logRecord)

def scanLog (style : SessionStyle) (source : String) : List Emission :=
  Console.log style.logging style.stamp [(scanEvent source).logRecord]

/-- The table of tokens as the terminal draws it. -/
def tokenTable (style : SessionStyle) (source : String) : Emission :=
  .out (style.terminal.drawn (TokenTable.ofTokens (scan source).tokens))

/-- What a command does that fails as a run does, after what it has written before. -/
def failsAs (style : SessionStyle) (outcome : Outcome) (before : List Emission) : Result where
  emissions := before ++ errorLines style outcome.diagnostics
  exitCode := outcome.exitCode.code

/-- A run gets to evaluate a tree: it gives a value or fails at that. -/
def EvaluatesTree (source : String) : Prop :=
  (run source).outcome.ok = true ∨ (Ending.failure .runtime).Describes source (run source).outcome

/-- There is nothing wrong with the source until it has been parsed. -/
def HasTree (source : String) : Prop :=
  (scan source).problems = [] ∧ ∃ expr, (Parser.attempt { tokens := (scan source).tokens } {}).1 = .ok (some expr)

section
variable {source : String}

theorem run_of_problems (found : (scan source).problems ≠ []) :
    (run source).outcome = .failed (Reporter.recordAll {} (scan source).problems) := by
  have runs : Runs {} source (run source) := runWith_runs {} source
  generalize run source = result at runs ⊢
  cases runs with
  | scanFailed => rfl
  | parseFailed _ clean | evalFailed _ clean | evaluated _ clean => exact absurd clean found

theorem describes_scan_iff :
    (Ending.failure .scan).Describes source (run source).outcome ↔ (scan source).problems ≠ [] := by
  constructor
  · intro describes
    have failed : FailedScanning source (run source).outcome := describes
    have some := failed.some
    rwa [failed.diagnostics, ne_eq, List.map_eq_nil_iff] at some
  · intro found
    rw [run_of_problems found]
    exact failed_recordAll found

theorem evaluatesTree_iff : EvaluatesTree source ↔ HasTree source := by
  have runs : Runs {} source (run source) := runWith_runs {} source
  unfold EvaluatesTree
  generalize run source = result at runs
  cases runs with
  | scanFailed found =>
    have found : (scan source).problems ≠ [] := mt reported_eq_nil_iff.mpr found
    have failed : (Ending.failure .scan).Describes source _ := failed_recordAll found
    refine iff_of_false ?_ fun tree => found tree.1
    rintro (fine | describes)
    · exact failed_not_ok (FailedScanning.some failed) fine
    · cases describes.eq_endingOf.trans failed.eq_endingOf.symm
  | parseFailed _ _ none _ same =>
    have failed : (Ending.failure .parse).Describes source _ := failed_record (congrArg Problem.stage same)
    apply iff_of_false
    · rintro (fine | describes)
      · cases fine
      · cases describes.eq_endingOf.trans failed.eq_endingOf.symm
    · rintro ⟨_, expr, gives⟩
      cases gives.symm.trans none
  | evalFailed _ clean gives => exact iff_of_true (.inr (failed_record rfl)) ⟨clean, _, gives⟩
  | evaluated _ clean gives => exact iff_of_true (.inl rfl) ⟨clean, _, gives⟩

theorem runSource_eq (style : SessionStyle) (source : String) :
    Command.runSource style source = {
      emissions := Session.printed style (run source)
      exitCode := (run source).outcome.exitCode.code } := by
  have whole : (run source).outcome.brokenOff = false := (runWith_runs {} source).not_brokenOff
  simp only [Command.runSource, whole, Bool.false_eq_true, if_false]

theorem tokensOf_failed (style : SessionStyle) (found : (scan source).problems ≠ []) :
    Command.tokensOf style source =
      failsAs style (run source).outcome (scanLog style source ++ [tokenTable style source]) := by
  have failed : (Reporter.recordAll {} (scan source).problems).hadError = true := by
    rw [hadError_iff, recordAll_diagnostics {}]
    exact mt List.map_eq_nil_iff.mp found
  rw [run_of_problems found]
  exact if_pos failed

theorem tokensOf_fine (style : SessionStyle) (clean : (scan source).problems = []) :
    Command.tokensOf style source = { emissions := scanLog style source ++ [tokenTable style source] } := by
  have silent : ¬ (Reporter.recordAll {} (scan source).problems).hadError = true := by
    rw [clean]
    decide
  exact if_neg silent

/-- `Beside style source run result`: how `ast` ends beside a run of the same source. They stop together before
there is a tree, or have the same tree. -/
inductive Beside (style : SessionStyle) (source : String) : Run → Result → Prop where
  | unread {run : Run} (none : ¬ HasTree source) :
      Beside style source run (failsAs style run.outcome (readLog style run))
  | read {run : Run} {expr : Expr} (clean : (scan source).problems = [])
      (gives : (Parser.attempt { tokens := (scan source).tokens } {}).1 = .ok (some expr))
      (parsed : .parsed expr ∈ run.events) (ends : run.outcome = conclusion expr) :
      Beside style source run { emissions := readLog style run ++ [outLine style expr.prefixText] }

theorem astOf_beside (style : SessionStyle) (source : String) :
    Beside style source (run source) (Command.astOf style source) := by
  have found := @hadError_iff (Reporter.recordAll {} (scan source).problems)
  rw [recordAll_diagnostics {}, List.nil_append, ne_eq, List.map_eq_nil_iff] at found
  unfold Command.astOf run runWith
  dsimp only
  split
  next failed => exact .unread fun tree => found.mp failed tree.1
  next fine =>
    have clean : (scan source).problems = [] := Decidable.not_not.mp (mt found.mpr fine)
    have parses := (scan_hasEnd source).parses {}
    rw [clean]
    generalize parse .expression (scan source).tokens = parsed at parses
    cases parses with
    | fault _ none =>
      refine .unread ?_
      rintro ⟨_, expr, gives⟩
      cases gives.symm.trans none
    | @tree expr _ _ gives =>
      cases ends : expr.eval with
      | error fault =>
        simp only [ends]
        exact .read clean gives (by simp) (by rw [conclusion, ends]; rfl)
      | ok value =>
        simp only [ends]
        exact .read clean gives (by simp) (by rw [conclusion, ends])

theorem run_failed (failed : (run source).outcome.ok = false) :
    (run source).outcome.diagnostics ≠ [] ∧ (run source).outcome.exitCode.code ≠ 0 := by
  have runs : Runs {} source (run source) := runWith_runs {} source
  have bad : ¬ (run source).outcome.ok = true := Bool.eq_false_iff.mp failed
  exact ⟨fun none => bad (outcome_ok_iff.mpr ⟨none, runs.not_brokenOff⟩), mt runs.ok_iff.mpr bad⟩

end

/-- On every source and every terminal, `run` prints the value, or fails with a line on standard error for each
diagnostic of the run and its exit code. So does `tokens`, after the table, exactly if the run fails in its scan; and
`ast`, unless the run gets to evaluate a tree, which is the tree that `ast` prints then. A run that fails has
something to report, and an exit code for it. -/
theorem commands_agree (style : SessionStyle) (source : String) :
    ((run source).outcome.ok = true → Command.runSource style source =
      { emissions := runLog style source ++ [outLine style (run source).outcome.text] }) ∧
    ((run source).outcome.ok = false → Command.runSource style source =
      failsAs style (run source).outcome (runLog style source)) ∧
    ((Ending.failure .scan).Describes source (run source).outcome → Command.tokensOf style source =
      failsAs style (run source).outcome (scanLog style source ++ [tokenTable style source])) ∧
    (¬ (Ending.failure .scan).Describes source (run source).outcome → Command.tokensOf style source =
      { emissions := scanLog style source ++ [tokenTable style source] }) ∧
    (EvaluatesTree source → ∃ expr, (Parser.attempt { tokens := (scan source).tokens } {}).1 = .ok (some expr) ∧
      .parsed expr ∈ (run source).events ∧ (run source).outcome = conclusion expr ∧
      Command.astOf style source =
        { emissions := readLog style (run source) ++ [outLine style expr.prefixText] }) ∧
    (¬ EvaluatesTree source → Command.astOf style source =
      failsAs style (run source).outcome (readLog style (run source))) ∧
    ((run source).outcome.ok = false →
      (run source).outcome.diagnostics ≠ [] ∧ (run source).outcome.exitCode.code ≠ 0) := by
  rw [describes_scan_iff, not_not, evaluatesTree_iff]
  have beside := astOf_beside style source
  refine ⟨?_, ?_, tokensOf_failed style, tokensOf_fine style, ?_, ?_, run_failed⟩
  · intro fine
    obtain ⟨_, _, _, _, ends⟩ := run_ok fine
    rw [runSource_eq, Session.printed, if_pos fine, ends]
    rfl
  · intro failed
    rw [runSource_eq, Session.printed, if_neg (Bool.eq_false_iff.mp failed)]
    rfl
  · intro tree
    generalize Command.astOf style source = result at beside ⊢
    cases beside with
    | unread none => exact absurd tree none
    | read _ gives parsed ends => exact ⟨_, gives, parsed, ends, rfl⟩
  · intro none
    generalize Command.astOf style source = result at beside ⊢
    cases beside with
    | unread => rfl
    | read clean gives => exact absurd ⟨clean, _, gives⟩ none

/-- A source that fails in its scan, one that fails at its evaluation, and one that has a value. -/
theorem commands_troubled :
    (Command.runSource plainStyle "@" =
        { emissions := [.err "[line 1] Error: Unrecognized character: @\n"], exitCode := 65 } ∧
      Command.tokensOf plainStyle "@" = {
        emissions := [tokenTable plainStyle "@", .err "[line 1] Error: Unrecognized character: @\n"]
        exitCode := 65 } ∧
      Command.astOf plainStyle "@" =
        { emissions := [.err "[line 1] Error: Unrecognized character: @\n"], exitCode := 65 }) ∧
    (Command.runSource plainStyle "!nil" =
        { emissions := [.err "[line 1] Error: Cannot perform 'Not' on operand 'nil'\n"], exitCode := 65 } ∧
      Command.tokensOf plainStyle "!nil" = { emissions := [tokenTable plainStyle "!nil"] } ∧
      Command.astOf plainStyle "!nil" = { emissions := [.out "(! nil)\n"] }) ∧
    Command.runSource plainStyle "!true" = { emissions := [.out "false\n"] } := by
  have outcome : (run "@").outcome = failure ⟨.scan, 1, "", "Unrecognized character: @"⟩ := by decide +kernel
  have outcome' : (run "!nil").outcome = failure ⟨.runtime, 1, "", "Cannot perform 'Not' on operand 'nil'"⟩ := by
    decide +kernel
  have outcome'' : (run "!true").outcome = { value := .boolean false } := by decide +kernel
  have faulty : (scan "@").problems ≠ [] := by decide +kernel
  have clean : (scan "!nil").problems = [] := by decide +kernel
  have tree : (Parser.attempt { tokens := (scan "!nil").tokens } {}).1 =
      .ok (some (.unary .not (.literal .nil) 1)) := by decide +kernel
  have line : errorLines plainStyle (run "@").outcome.diagnostics =
      [.err "[line 1] Error: Unrecognized character: @\n"] := by decide +kernel
  have line' : errorLines plainStyle (run "!nil").outcome.diagnostics =
      [.err "[line 1] Error: Cannot perform 'Not' on operand 'nil'\n"] := by decide +kernel
  obtain ⟨-, fails, table, -, -, unread, -⟩ := commands_agree plainStyle "@"
  obtain ⟨-, fails', -, table', read, -, -⟩ := commands_agree plainStyle "!nil"
  obtain ⟨succeeds, -⟩ := commands_agree plainStyle "!true"
  obtain ⟨expr, gives, -, -, shown⟩ := read (evaluatesTree_iff.mpr ⟨clean, _, tree⟩)
  cases tree.symm.trans gives
  rw [failsAs, line, outcome] at fails table unread
  rw [failsAs, line', outcome'] at fails'
  rw [outcome''] at succeeds
  refine ⟨⟨fails rfl, table ?_, unread ?_⟩, ⟨fails' rfl, table' ?_, shown⟩, succeeds rfl⟩
  · rw [← outcome]
    exact describes_scan_iff.mpr faulty
  · exact mt evaluatesTree_iff.mp fun tree => faulty tree.1
  · exact mt describes_scan_iff.mp (not_not.mpr clean)

end Lox.Proofs
