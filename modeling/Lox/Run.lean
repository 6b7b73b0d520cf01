import Lox.Token.Scan
import Lox.Expr.Grammar
import Lox.Expr.Eval

/-! Running a source text: scan, parse, evaluate. Each stage runs only if nothing has been
reported before it, be it by this run or by an earlier one with the same reporter. -/

namespace Lox

/-- What happens in a run, as its log tells it. -/
inductive Event where
  | scanned (tokens : Nat) (lines : Int)
  | scanFailed (diagnostics : Nat)
  | parsed (expr : Expr)
  | parseFailed (problem : Problem)
  | evaluated (value : Value)
  deriving DecidableEq, Repr

/-- A record of the log: the part of the program it comes from, and what it says. -/
structure LogRecord where
  origin : String
  message : String
  deriving DecidableEq, Repr

namespace Event

/-- The name under which the log files an event. -/
def origin : Event → String
  | .scanned _ _ => "loxpy.core.expression_lang.scanner"
  | .scanFailed _ => "loxpy.core.pipeline"
  | .parsed _ | .parseFailed _ => "loxpy.core.expression_lang.parser"
  | .evaluated _ => "loxpy.core.expression_lang.evaluator"

def message : Event → String
  | .scanned tokens lines =>
    "Scanned " ++ toString tokens ++ " tokens over " ++ toString lines ++ " line(s)"
  | .scanFailed diagnostics => "Scan reported " ++ toString diagnostics ++ " error(s)"
  | .parsed expr => "Parsed expression: " ++ expr.infixText
  | .parseFailed problem => "Parse failed: " ++ problem.text
  | .evaluated value => "Evaluated to " ++ value.type.name ++ " " ++ value.debugText

def logRecord (event : Event) : LogRecord := ⟨event.origin, event.message⟩

end Event

/-- How a run ends: with a value, or with diagnostics and the value nil. A run whose parser runs
out of tokens is broken off and has neither. -/
structure Outcome where
  value : Value := .nil
  diagnostics : List Diagnostic := []
  exitCode : ExitCode := .ok
  brokenOff : Bool := false
  deriving DecidableEq, Repr

namespace Outcome

def ok (outcome : Outcome) : Bool := outcome.diagnostics.isEmpty && !outcome.brokenOff

def text (outcome : Outcome) : String := outcome.value.text

def failed (reporter : Reporter) : Outcome :=
  { diagnostics := reporter.diagnostics, exitCode := reporter.failureCode }

end Outcome

/-- A run: its outcome, the reporter after it, and its log. -/
structure Run where
  outcome : Outcome
  reporter : Reporter
  events : List Event
  deriving DecidableEq, Repr

/-- Runs a source text with a reporter that may hold earlier diagnostics. -/
def runWith (reporter : Reporter) (source : String) : Run :=
  let scanned := scan source
  let reporter := reporter.recordAll scanned.problems
  let start := Event.scanned scanned.tokens.length scanned.lastLine
  if reporter.hadError then
    ⟨.failed reporter, reporter, [start, .scanFailed reporter.diagnostics.length]⟩
  else
    match parse .expression scanned.tokens with
    | .fault .outOfTokens _ => ⟨{ Outcome.failed reporter with brokenOff := true }, reporter, [start]⟩
    | .fault (.unexpected found message) _ =>
      let problem := found.problem message
      let reporter := reporter.record problem
      ⟨.failed reporter, reporter, [start, .parseFailed problem]⟩
    | .tree expr _ _ =>
      match expr.eval with
      | .error fault =>
        let reporter := reporter.record fault.problem
        ⟨.failed reporter, reporter, [start, .parsed expr]⟩
      | .ok value => ⟨{ value }, reporter, [start, .parsed expr, .evaluated value]⟩

/-- Runs a source text on its own. -/
def run (source : String) : Run := runWith {} source

end Lox
