import Mathlib.Logic.ExistsUnique
import Lox.Proofs.ScanLines
import Lox.Proofs.Walking

/-! How a run ends. It gives the value of the tree it reads, or it fails in one of its three stages,
and never in two ways at once. A scan reports all it finds, in the order of the lines; the other
stages report one problem. No stage runs out of text or of tokens. -/

namespace Lox.Proofs

/-- Every operator of the tree stands on a line with the property. -/
def OnLines (property : Int → Prop) : Expr → Prop
  | .literal _ => True
  | .unary _ operand line => property line ∧ OnLines property operand
  | .binary _ left right line => property line ∧ OnLines property left ∧ OnLines property right
  | .grouping inner => OnLines property inner

section
variable {property : Int → Prop} {tokens : List Token} {expr : Expr}

theorem Derives.onLines {rule : Rule} (phrase : Derives rule tokens expr)
    (all : ∀ token ∈ tokens, property token.line) : OnLines property expr := by
  induction phrase with
  | pass _ _ ih => exact ih all
  | operator _ _ _ _ ihLeft ihRight =>
    rw [List.forall_mem_append, List.forall_mem_cons] at all
    exact ⟨all.2.1, ihLeft all.1, ihRight all.2.2⟩
  | sign _ _ ih =>
    rw [List.forall_mem_cons] at all
    exact ⟨all.1, ih all.2⟩
  | atom _ => trivial
  | group _ _ _ ih =>
    rw [List.cons_append, List.forall_mem_cons, List.forall_mem_append] at all
    exact ih all.2.1

theorem eval_fault_line {fault : EvalFault} (lines : OnLines property expr) (fails : expr.eval = .error fault) :
    property fault.line := by
  induction expr with
  | literal value => cases fails
  | grouping inner ih => exact ih lines fails
  | unary op operand line ih =>
    rw [Expr.eval] at fails
    split at fails
    next inner =>
      cases fails
      exact ih lines.2 inner
    next =>
      split at fails
      next => cases fails
      next =>
        cases fails
        exact lines.1
  | binary op left right line ihLeft ihRight =>
    rw [Expr.eval] at fails
    split at fails
    next inner =>
      cases fails
      exact ihLeft lines.2.1 inner
    next =>
      split at fails
      next inner =>
        cases fails
        exact ihRight lines.2.2 inner
      next =>
        split at fails
        next => cases fails
        next =>
          cases fails
          exact lines.1

end

/-- A diagnostic of a string or a comment that is not closed. -/
def Unterminated (d : Diagnostic) : Prop := ∃ what, d.message = "Unterminated " ++ what

theorem unrecognized_message_ne (c : Char) (what : String) :
    (ScanFault.unrecognized c).message ≠ "Unterminated " ++ what := by
  intro same
  change "Unrecognized character: " ++ String.singleton c = _ at same
  have chars := congrArg String.toList same
  rw [String.toList_append, String.toList_append] at chars
  simp at chars

theorem unclosed_of_message {cause : ScanFault} {what : String} (same : cause.message = "Unterminated " ++ what) :
    Unclosed (.fault cause) := by
  cases cause with
  | unterminatedString => exact .inl rfl
  | unterminatedComment => exact .inr rfl
  | unrecognized c => exact absurd same (unrecognized_message_ne c what)

theorem Lexical.rest_of_unclosed {piece : Piece} {taken rest : List Char} (lexical : Lexical piece taken rest)
    (unclosed : Unclosed piece) : rest = [] := by
  rcases unclosed with rfl | rfl
  · cases lexical
    rfl
  · cases lexical
    rfl

theorem locate_ordered (line : Int) (cut : List Segment) :
    ((Scan.locate line cut).problems.map Diagnostic.ofProblem).Pairwise fun d later => d.line ≤ later.line := by
  induction cut generalizing line with
  | nil => exact .nil
  | cons segment later ih =>
    have ordered := ih (line + newlines segment.text)
    rw [Scan.locate]
    cases segment.piece with
    | token _ | blank => exact ordered
    | fault cause =>
      refine .cons (fun d member => ?_) ordered
      obtain ⟨problem, found, rfl⟩ := List.mem_map.mp member
      obtain ⟨_, place, rfl, within⟩ := locate_problem_within found
      have below := within.1
      change line ≤ place
      omega

/-- Nothing comes after a stretch that is not closed, so nothing is reported after it. -/
theorem Cuts.unterminated_last {text : List Char} {cut : List Segment} (cuts : Cuts text cut []) (line : Int)
    {before after : List Diagnostic} {d : Diagnostic}
    (split : (Scan.locate line cut).problems.map .ofProblem = before ++ d :: after) (open_ : Unterminated d) :
    after = [] := by
  generalize empty : ([] : List Char) = rest at cuts
  induction cuts generalizing line before with
  | done => simp [Scan.locate] at split
  | @step piece taken middle cut rest lexical later ih =>
    rw [Scan.locate] at split
    cases piece with
    | token _ | blank => exact ih _ split empty
    | fault cause =>
      cases before with
      | cons _ before => exact ih _ (List.cons.inj split).2 empty
      | nil =>
        obtain ⟨rfl, rfl⟩ := List.cons.inj split
        obtain ⟨what, message⟩ := open_
        subst empty
        obtain rfl := lexical.rest_of_unclosed (unclosed_of_message message)
        have none : cut = [] := by
          have same := later.eq_segments
          rw [segments, List.append_nil] at same
          exact same.symm
        rw [none]
        rfl

/-- What a failed run gives in place of a value. -/
structure Failed (outcome : Outcome) : Prop where
  value : outcome.value = .nil
  code : outcome.exitCode.code = 65

/-- The diagnostics are what the scan finds, and only the last can be of a stretch that is not closed. -/
structure FailedScanning (source : String) (outcome : Outcome) : Prop extends Failed outcome where
  diagnostics : outcome.diagnostics = (scan source).problems.map .ofProblem
  some : outcome.diagnostics ≠ []
  scan : ∀ d ∈ outcome.diagnostics, d.stage = .scan
  ordered : outcome.diagnostics.Pairwise fun d later => d.line ≤ later.line
  last : ∀ before d after, outcome.diagnostics = before ++ d :: after → Unterminated d → after = []

structure FailedOnce (stage : Stage) (outcome : Outcome) : Prop extends Failed outcome where
  single : ∃ d, outcome.diagnostics = [d] ∧ d.stage = stage

structure Succeeded (source : String) (outcome : Outcome) : Prop where
  ok : outcome.ok = true
  silent : outcome.diagnostics = []
  code : outcome.exitCode.code = 0
  value : ∃ expr, (Parser.attempt { tokens := (scan source).tokens } {}).1 = .ok (some expr) ∧
    expr.eval = .ok outcome.value

/-- The ways a run can end: with a value, or by a failure of one stage. -/
inductive Ending where
  | value
  | failure (stage : Stage)
  deriving DecidableEq

def Ending.Describes (source : String) (outcome : Outcome) : Ending → Prop
  | .value => Succeeded source outcome
  | .failure .scan => FailedScanning source outcome
  | .failure .parse => FailedOnce .parse outcome
  | .failure .runtime => FailedOnce .runtime outcome

/-- The diagnostics tell which way a run has ended. -/
def endingOf : List Diagnostic → Ending
  | [] => .value
  | d :: _ => .failure d.stage

section
variable {source : String} {outcome : Outcome} {run : Run}

theorem FailedOnce.endingOf_eq {stage : Stage} (failed : FailedOnce stage outcome) :
    endingOf outcome.diagnostics = .failure stage := by
  obtain ⟨d, same, rfl⟩ := failed.single
  rw [same, endingOf]

theorem Ending.Describes.eq_endingOf {ending : Ending} (describes : ending.Describes source outcome) :
    ending = endingOf outcome.diagnostics := by
  match ending with
  | .value =>
    have succeeded : Succeeded source outcome := describes
    rw [succeeded.silent, endingOf]
  | .failure .scan =>
    have failed : FailedScanning source outcome := describes
    obtain ⟨d, later, same⟩ := List.exists_cons_of_ne_nil failed.some
    rw [same, endingOf, failed.scan d (by rw [same]; exact List.mem_cons_self)]
  | .failure .parse | .failure .runtime => exact (FailedOnce.endingOf_eq describes).symm

theorem recordAll_exitCode (reporter : Reporter) (problem : Problem) (later : List Problem) :
    (reporter.recordAll (problem :: later)).exitCode = some .badData := by
  induction later generalizing reporter problem with
  | nil => rfl
  | cons next later ih => exact ih (reporter.record problem) next

theorem failed_record {problem : Problem} {stage : Stage} (same : problem.stage = stage) :
    FailedOnce stage (.failed (Reporter.record {} problem)) :=
  ⟨⟨rfl, rfl⟩, _, rfl, same⟩

theorem failed_recordAll (found : (scan source).problems ≠ []) :
    FailedScanning source (.failed (Reporter.recordAll {} (scan source).problems)) := by
  have diagnostics : (Outcome.failed (Reporter.recordAll {} (scan source).problems)).diagnostics =
      (scan source).problems.map .ofProblem := recordAll_diagnostics {} _
  constructor
  · refine ⟨rfl, ?_⟩
    obtain ⟨problem, later, same⟩ := List.exists_cons_of_ne_nil found
    rw [same, Outcome.failed, Reporter.failureCode, recordAll_exitCode]
    rfl
  · exact diagnostics
  · rwa [diagnostics, ne_eq, List.map_eq_nil_iff]
  · intro d member
    rw [diagnostics] at member
    obtain ⟨problem, raised, rfl⟩ := List.mem_map.mp member
    obtain ⟨cause, place, rfl, -⟩ := locate_problem_within raised
    rfl
  · rw [diagnostics]
    exact locate_ordered 1 _
  · intro before d after split open_
    exact (cuts_segments source.toList).unterminated_last 1 (diagnostics.symm.trans split) open_

/-- The stage that ends a run says how it ends. -/
theorem Runs.exists_ending (runs : Runs {} source run) :
    ∃ ending : Ending, ending.Describes source run.outcome ∧
      (ending = .failure .scan ↔ (scan source).problems ≠ []) ∧
      (ending = .failure .parse ↔
        (scan source).problems = [] ∧ (Parser.attempt { tokens := (scan source).tokens } {}).1 = .ok none) := by
  cases runs with
  | scanFailed found =>
    have found : (scan source).problems ≠ [] := mt reported_eq_nil_iff.mpr found
    refine ⟨.failure .scan, failed_recordAll found, ?_, ?_⟩
    · simpa using found
    · simpa using fun none => absurd none found
  | parseFailed _ clean gives _ same =>
    refine ⟨.failure .parse, failed_record (same ▸ rfl), ?_, ?_⟩
    · simpa using clean
    · simpa using ⟨clean, gives⟩
  | evalFailed _ clean gives fails =>
    refine ⟨.failure .runtime, failed_record rfl, ?_, ?_⟩
    · simpa using clean
    · simp [gives]
  | evaluated _ clean gives ends =>
    refine ⟨.value, ⟨rfl, rfl, rfl, _, gives, ends⟩, ?_, ?_⟩
    · simpa using clean
    · simp [gives]

theorem Runs.within (runs : Runs {} source run) :
    ∀ d ∈ run.outcome.diagnostics, Within 1 (1 + newlines source.toList) d.line := by
  have token {token : Token} (member : token ∈ (scan source).tokens) :
      Within 1 (1 + newlines source.toList) token.line := by
    rw [← (scan_ended source).1]
    exact locate_token_within member
  cases runs with
  | scanFailed _ =>
    intro d member
    rw [Outcome.failed, recordAll_diagnostics {}] at member
    obtain ⟨problem, raised, rfl⟩ := List.mem_map.mp member
    obtain ⟨cause, place, rfl, within⟩ := locate_problem_within raised
    rw [← (scan_ended source).1]
    exact within
  | parseFailed _ _ _ member same =>
    intro d found
    rw [List.mem_singleton.mp found, same]
    exact token member
  | evalFailed _ _ gives fails =>
    intro d found
    rw [List.mem_singleton.mp found]
    obtain ⟨read, rest, split, phrase⟩ := attempt_derives gives
    refine eval_fault_line (phrase.onLines fun token' member => token ?_) fails
    change (scan source).tokens = read ++ rest at split
    rw [split]
    exact List.mem_append_left rest member
  | evaluated => exact fun d member => absurd member List.not_mem_nil

end

theorem attempt_scan (source : String) (reporter : Reporter) :
    ∃ tree?, (Parser.attempt { tokens := (scan source).tokens } reporter).1 = .ok tree? := by
  have parses := (scan_hasEnd source).parses reporter
  generalize parse .expression (scan source).tokens = parsed at parses
  cases parses with
  | tree gives => exact ⟨_, gives⟩
  | fault _ gives => exact ⟨_, gives⟩

/-- A run ends in exactly one way: by the scan if that finds a problem, else by the parser if it finds
no tree, else by the evaluation of the tree. All that is reported stands on a line of the source. Walked
character by character, the scan never takes one past the end of the source, nor does the parser take a token
past the last, so no run is broken off. -/
theorem run_ends_once (source : String) :
    (∃! ending : Ending, ending.Describes source (run source).outcome) ∧
    ((Ending.failure .scan).Describes source (run source).outcome ↔ (scan source).problems ≠ []) ∧
    ((Ending.failure .parse).Describes source (run source).outcome ↔
      (scan source).problems = [] ∧ (Parser.attempt { tokens := (scan source).tokens } {}).1 = .ok none) ∧
    (∀ d ∈ (run source).outcome.diagnostics, 1 ≤ d.line ∧ d.line ≤ 1 + newlines source.toList) ∧
    (∃ final, walkTokens (.ofSource source) = some ((scan source).problems, final) ∧
      final.tokens = (scan source).tokens) ∧
    (∃ tree?, (Parser.attempt { tokens := (scan source).tokens } {}).1 = .ok tree?) ∧
    (run source).outcome.brokenOff = false := by
  have runs : Runs {} source (run source) := runWith_runs {} source
  obtain ⟨ending, describes, scans, parses⟩ := runs.exists_ending
  have only {other : Ending} (also : other.Describes source (run source).outcome) : other = ending :=
    also.eq_endingOf.trans describes.eq_endingOf.symm
  have iff (other : Ending) : other.Describes source (run source).outcome ↔ ending = other :=
    ⟨fun also => (only also).symm, fun same => same ▸ describes⟩
  exact ⟨⟨ending, describes, fun _ => only⟩, (iff _).trans scans, (iff _).trans parses, runs.within,
    walkTokens_scan source, attempt_scan source {}, runs.not_brokenOff⟩

/-- A stray character, and after it a comment that is not closed. -/
theorem run_ends_unclosed :
    (Ending.failure .scan).Describes "1 @\n/* 2" (run "1 @\n/* 2").outcome ∧
      (run "1 @\n/* 2").outcome.value = .nil ∧ (run "1 @\n/* 2").outcome.exitCode.code = 65 ∧
      (run "1 @\n/* 2").outcome.diagnostics = [
        ⟨.scan, 1, "", "Unrecognized character: @"⟩, ⟨.scan, 2, "", "Unterminated block comment."⟩] := by
  have found : (scan "1 @\n/* 2").problems ≠ [] := by decide +kernel
  have failed : FailedScanning "1 @\n/* 2" (run "1 @\n/* 2").outcome := (run_ends_once "1 @\n/* 2").2.1.mpr found
  refine ⟨failed, failed.value, failed.code, failed.diagnostics.trans ?_⟩
  decide +kernel

end Lox.Proofs
