import Lox.Cli.Console
import Lox.Text.Blank
import Lox.Text.Lines

/-! An interactive session. Each line is run on its own, and what it reports is forgotten
before the next one. -/

namespace Lox.Cli

/-- How a session greets a line, whether it writes a log, and where it is shown. -/
structure SessionStyle where
  prompt : String
  logging : Bool
  stamp : String
  terminal : Terminal

namespace Session

/-- What a run prints: its log, then its value or its diagnostics. -/
def printed (style : SessionStyle) (done : Run) : List Emission :=
  Console.log style.logging style.stamp (done.events.map Event.logRecord) ++
    if done.outcome.ok then [Console.value style.terminal done.outcome.text]
    else Console.diagnostics style.terminal done.outcome.diagnostics

/-- Answers a line; a blank one is passed over. -/
def answer (style : SessionStyle) (reporter : Reporter) (line : String) :
    List Emission × Reporter :=
  if Text.isAllBlank line.toList then ([], reporter)
  else
    let done := runWith reporter line
    (printed style done, done.reporter.reset)

def prompt (style : SessionStyle) : Emission := .out (style.terminal.shown style.prompt)

/-- What is written at the end of input. -/
def ending (style : SessionStyle) : List Emission :=
  .out "\n" :: Console.log style.logging style.stamp [⟨"loxpy.cli.repl", "REPL session ended"⟩]

/-- Answers all lines with one reporter, a prompt before each and before the end of input. -/
def answerAll (style : SessionStyle) (reporter : Reporter) : List String → List Emission
  | [] => prompt style :: ending style
  | line :: rest =>
    let (emissions, reporter) := answer style reporter line
    prompt style :: emissions ++ answerAll style reporter rest

/-- The lines of an input text. -/
def linesOf (input : String) : List String :=
  (Text.lines (Text.unifyNewlines input.toList)).map String.ofList

/-- A session over an input text. -/
def emissions (style : SessionStyle) (input : String) : List Emission :=
  answerAll style {} (linesOf input)

end Session

end Lox.Cli
