import Lox.Run
import Lox.Proofs.InfixText
import Lox.Proofs.ParserFaults

/-! What a run makes of its source. Each stage either ends the run or hands on what it found, and the
parser, given what a scan hands on, always comes to a tree or to a token that it reports. Scanning and
parsing only find the tree; once there is one, the outcome is that of its evaluation. -/

namespace Lox.Proofs

theorem recordAll_diagnostics (reporter : Reporter) (problems : List Problem) :
    (reporter.recordAll problems).diagnostics = reporter.diagnostics ++ problems.map .ofProblem := by
  induction problems generalizing reporter with
  | nil => exact (List.append_nil _).symm
  | cons problem problems ih =>
    have later := ih (reporter.record problem)
    rw [Reporter.record, Reporter.report, List.append_assoc] at later
    exact later

/-- What the scan of a source finds, as it is reported. -/
def reported (source : String) : List Diagnostic := (scan source).problems.map .ofProblem

theorem recordAll_scan (reporter : Reporter) (source : String) :
    (reporter.recordAll (scan source).problems).diagnostics = reporter.diagnostics ++ reported source :=
  recordAll_diagnostics reporter _

theorem reported_eq_nil_iff {source : String} : reported source = [] ↔ (scan source).problems = [] :=
  List.map_eq_nil_iff

theorem hadError_iff {reporter : Reporter} : reporter.hadError = true ↔ reporter.diagnostics ≠ [] := by
  rw [Reporter.hadError, Bool.not_eq_true', ← Bool.not_eq_true, ne_eq, List.isEmpty_iff]

theorem outcome_ok_iff {outcome : Outcome} :
    outcome.ok = true ↔ outcome.diagnostics = [] ∧ outcome.brokenOff = false := by
  rw [Outcome.ok, Bool.and_eq_true, List.isEmpty_iff, Bool.not_eq_true']

theorem locate_hasEnd (line : Int) (cut : List Segment) : HasEnd (Scan.locate line cut).tokens := by
  induction cut generalizing line with
  | nil => exact ⟨.eof line, List.mem_singleton_self _, rfl⟩
  | cons segment later ih =>
    obtain ⟨last, member, kind⟩ := ih (line + newlines segment.text)
    rw [Scan.locate]
    cases segment.piece with
    | token _ => exact ⟨last, List.mem_cons_of_mem _ member, kind⟩
    | blank => exact ⟨last, member, kind⟩
    | fault _ => exact ⟨last, member, kind⟩

theorem scan_hasEnd (source : String) : HasEnd (scan source).tokens := locate_hasEnd 1 _

/-- How parsing ends on tokens with an end of input: they are not run out of. -/
inductive Parses (tokens : List Token) (reporter : Reporter) : Parsed tokens.length → Prop where
  | tree {expr : Expr} {rest : List Token} {fewer : rest.length < tokens.length}
      (gives : (Parser.attempt { tokens } reporter).1 = .ok (some expr)) :
      Parses tokens reporter (.tree expr rest fewer)
  | fault {found : Token} {message : String} {rest : List Token} (member : found ∈ tokens)
      (gives : (Parser.attempt { tokens } reporter).1 = .ok none) :
      Parses tokens reporter (.fault (.unexpected found message) rest)

theorem HasEnd.parses {tokens : List Token} (ended : HasEnd tokens) (reporter : Reporter) :
    Parses tokens reporter (parse .expression tokens) := by
  cases parsed : parse .expression tokens with
  | tree expr rest fewer => exact .tree (attempt_tree_iff_parse.mpr ⟨rest, fewer, parsed⟩)
  | fault cause rest =>
    obtain ⟨read, next, tail, result, rfl, reads, -⟩ := exists_reads (.rule .expression) tokens ended
    have same : Task.run (.rule .expression) (read ++ next :: tail) = (.error cause, rest) :=
      congrArg outcome parsed
    obtain ⟨rfl, rfl⟩ := Prod.mk.inj ((reads.run tail).symm.trans same)
    have fails : ∀ message, cause = .unexpected next message →
        Parses (read ++ next :: tail) reporter (.fault cause (next :: tail)) := by
      rintro message rfl
      exact .fault (by simp) (congrArg Prod.fst (reads.attempt_fault tail reporter))
    cases reads.blames cause rfl with
    | closing _ _ => exact fails _ rfl
    | operand _ => exact fails _ rfl

def scanEvent (source : String) : Event := .scanned (scan source).tokens.length (scan source).lastLine

/-- `Runs reporter source run`: what the run does, by the stage that ends it. -/
inductive Runs (reporter : Reporter) (source : String) : Run → Prop where
  | scanFailed (found : reporter.diagnostics ++ reported source ≠ []) :
      Runs reporter source {
        outcome := .failed (reporter.recordAll (scan source).problems)
        reporter := reporter.recordAll (scan source).problems
        events := [scanEvent source,
          .scanFailed (reporter.recordAll (scan source).problems).diagnostics.length] }
  | parseFailed {problem : Problem} {found : Token} {message : String} (silent : reporter.diagnostics = [])
      (clean : (scan source).problems = [])
      (gives : (Parser.attempt { tokens := (scan source).tokens } reporter).1 = .ok none)
      (member : found ∈ (scan source).tokens) (same : problem = found.problem message) :
      Runs reporter source {
        outcome := .failed (reporter.record problem)
        reporter := reporter.record problem
        events := [scanEvent source, .parseFailed problem] }
  | evalFailed {expr : Expr} {fault : EvalFault} (silent : reporter.diagnostics = [])
      (clean : (scan source).problems = [])
      (gives : (Parser.attempt { tokens := (scan source).tokens } reporter).1 = .ok (some expr))
      (fails : expr.eval = .error fault) :
      Runs reporter source {
        outcome := .failed (reporter.record fault.problem)
        reporter := reporter.record fault.problem
        events := [scanEvent source, .parsed expr] }
  | evaluated {expr : Expr} {value : Value} (silent : reporter.diagnostics = [])
      (clean : (scan source).problems = [])
      (gives : (Parser.attempt { tokens := (scan source).tokens } reporter).1 = .ok (some expr))
      (ends : expr.eval = .ok value) :
      Runs reporter source {
        outcome := { value }
        reporter
        events := [scanEvent source, .parsed expr, .evaluated value] }

theorem runWith_runs (reporter : Reporter) (source : String) : Runs reporter source (runWith reporter source) := by
  have found := @hadError_iff (reporter.recordAll (scan source).problems)
  rw [recordAll_scan] at found
  unfold runWith
  dsimp only
  split
  next failed => exact .scanFailed (found.mp failed)
  next fine =>
    obtain ⟨silent, clean⟩ : reporter.diagnostics = [] ∧ (scan source).problems = [] := by
      rw [← reported_eq_nil_iff, ← List.append_eq_nil_iff]
      exact Decidable.not_not.mp (mt found.mpr fine)
    have untouched : reporter.recordAll (scan source).problems = reporter := by rw [clean]; rfl
    have parses := (scan_hasEnd source).parses reporter
    rw [untouched]
    generalize parse .expression (scan source).tokens = parsed at parses
    cases parses with
    | fault member gives => exact .parseFailed silent clean gives member rfl
    | @tree expr _ _ gives =>
      cases ends : expr.eval with
      | error fault =>
        simp only [ends]
        exact .evalFailed silent clean gives ends
      | ok value =>
        simp only [ends]
        exact .evaluated silent clean gives ends

/-- A scan ends its tokens with the end of input, so no run is broken off. -/
theorem Runs.not_brokenOff {reporter : Reporter} {source : String} {run : Run} (runs : Runs reporter source run) :
    run.outcome.brokenOff = false := by
  cases runs <;> rfl

/-- The outcome of a run that fails at one place. -/
def failure (diagnostic : Diagnostic) : Outcome :=
  { diagnostics := [diagnostic], exitCode := .badData }

/-- The outcome of a run that finds the tree and has nothing to report until then. -/
def conclusion (expr : Expr) : Outcome :=
  match expr.eval with
  | .ok value => { value }
  | .error fault => failure (.ofProblem fault.problem)

theorem run_outcome {source : String} {expr : Expr} (clean : (scan source).problems = [])
    (gives : (Parser.attempt { tokens := (scan source).tokens } {}).1 = .ok (some expr)) :
    (run source).outcome = conclusion expr := by
  have runs : Runs {} source (run source) := runWith_runs {} source
  generalize run source = result at runs ⊢
  cases runs with
  | scanFailed found => exact absurd (reported_eq_nil_iff.mpr clean) found
  | parseFailed _ _ none => cases gives.symm.trans none
  | evalFailed _ _ found fails =>
    cases gives.symm.trans found
    rw [conclusion, fails]
    rfl
  | evaluated _ _ found ends =>
    cases gives.symm.trans found
    rw [conclusion, ends]

theorem ReadsAs.run_outcome {source : String} {expr : Expr} (reads : ReadsAs source expr) :
    (run source).outcome = conclusion expr := by
  obtain ⟨clean, attempts⟩ := reads
  obtain ⟨moved, gives, -⟩ := attempts {}
  exact Proofs.run_outcome clean (congrArg Prod.fst gives)

theorem run_ok {source : String} (fine : (run source).outcome.ok = true) :
    ∃ expr value, (Parser.attempt { tokens := (scan source).tokens } {}).1 = .ok (some expr) ∧
      expr.eval = .ok value ∧ (run source).outcome = { value } := by
  have runs : Runs {} source (run source) := runWith_runs {} source
  generalize run source = result at runs fine ⊢
  cases runs with
  | scanFailed found =>
    rw [← recordAll_scan] at found
    exact absurd (outcome_ok_iff.mp fine).1 found
  | parseFailed | evalFailed => cases fine
  | evaluated _ _ gives ends => exact ⟨_, _, gives, ends, rfl⟩

end Lox.Proofs
