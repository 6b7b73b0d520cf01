/-! Problems found in a source text, and the reporter that collects them. -/

namespace Lox

/-- Where in a run a problem arises. -/
inductive Stage where
  | scan
  | parse
  | runtime
  deriving DecidableEq, Repr

namespace Stage

def name : Stage → String
  | .scan => "scan"
  | .parse => "parse"
  | .runtime => "runtime"

def ofName? (name : String) : Option Stage :=
  [Stage.scan, Stage.parse, Stage.runtime].find? (·.name == name)

end Stage

/-- How a process ends. -/
inductive ExitCode where
  | ok
  | usage
  | badData
  | noInput
  deriving DecidableEq, Repr

namespace ExitCode

def code : ExitCode → Nat
  | .ok => 0
  | .usage => 64
  | .badData => 65
  | .noInput => 66

def ofCode? (code : Int) : Option ExitCode :=
  [ExitCode.ok, ExitCode.usage, ExitCode.badData, ExitCode.noInput].find? ((·.code : _ → Int) · == code)

end ExitCode

/-- A problem as it is raised; it may not know its line. -/
structure Problem where
  stage : Stage
  message : String
  line : Option Int := none
  location : String := ""
  deriving DecidableEq, Repr

namespace Problem

/-- The message after its line, if it has one. -/
def text (problem : Problem) : String :=
  match problem.line with
  | some line => "[line " ++ toString line ++ "] " ++ problem.message
  | none => problem.message

end Problem

/-- A problem as it is reported. `location` is empty, or tells the token it was found at. -/
structure Diagnostic where
  stage : Stage
  line : Int
  location : String
  message : String
  deriving DecidableEq, Repr

namespace Diagnostic

def text (d : Diagnostic) : String :=
  "[line " ++ toString d.line ++ "] Error" ++ d.location ++ ": " ++ d.message

/-- A problem without a line is reported on line 0. -/
def ofProblem (problem : Problem) : Diagnostic :=
  ⟨problem.stage, problem.line.getD 0, problem.location, problem.message⟩

end Diagnostic

/-- The diagnostics of one or more runs, and the exit code of the last of them. -/
structure Reporter where
  diagnostics : List Diagnostic := []
  exitCode : Option ExitCode := none
  deriving DecidableEq, Repr

namespace Reporter

def hadError (reporter : Reporter) : Bool := !reporter.diagnostics.isEmpty

def report (reporter : Reporter) (d : Diagnostic) (exitCode : ExitCode := .badData) : Reporter :=
  ⟨reporter.diagnostics ++ [d], some exitCode⟩

/-- Forgets all that was reported. -/
def reset (_ : Reporter) : Reporter := {}

/-- Reports a raised problem. -/
def record (reporter : Reporter) (problem : Problem) : Reporter :=
  reporter.report (.ofProblem problem)

/-- Reports problems in order. -/
def recordAll (reporter : Reporter) (problems : List Problem) : Reporter :=
  problems.foldl record reporter

/-- The code a failing run ends with: never that of success. -/
def failureCode (reporter : Reporter) : ExitCode :=
  match reporter.exitCode with
  | none | some .ok => .badData
  | some code => code

end Reporter

end Lox
