import Lox.Cli.Command
import Lox.Cli.PlainTerminal
import Lox.Release

/-! The program: reads arguments, variables, files and standard input, and writes what the
command line comes to. -/

namespace Lox.Cli

def emit : Emission → IO Unit
  | .out text => do
    let stream ← IO.getStdout
    stream.putStr text
    stream.flush
  | .err text => do (← IO.getStderr).putStr text

/-- What a path leads to on this machine. -/
def probe (path : Path) : IO (Option Entry) := do
  try
    return some (.file (← IO.FS.readBinFile path.text).toList)
  catch
    | .inappropriateType .. => return some .directory
    | _ => return none

/-- Holds a session with standard input. -/
partial def converse (style : SessionStyle) (reporter : Reporter) : IO Unit := do
  emit (Session.prompt style)
  let chunk ← (← IO.getStdin).getLine
  if chunk.isEmpty then (Session.ending style).forM emit
  else
    let mut reporter := reporter
    let mut isFirst := true
    for line in Session.linesOf chunk do
      unless isFirst do emit (Session.prompt style)
      isFirst := false
      let (emissions, after) := Session.answer style reporter line
      emissions.forM emit
      reporter := after
    converse style reporter

end Lox.Cli

open Lox Lox.Cli in
def main (arguments : List String) : IO UInt32 := do
  let found ← (pathsNamed arguments).mapM fun path => do return (path, ← probe path)
  let environment : Environment :=
    ⟨← IO.getEnv "LOX_PROMPT", ← IO.getEnv "LOX_LOG_LEVEL", ← IO.getEnv "LOX_COLOR"⟩
  let around : Surroundings :=
    ⟨⟨fun path => (found.lookup path).join⟩, (← IO.currentDir).toString, environment,
      Release.current, "Lean 4", toString (← IO.monoMsNow), .plain⟩
  match plan around arguments with
  | .session style =>
    converse style {}
    return 0
  | .result result =>
    result.emissions.forM emit
    if let some crash := result.crash then emit (.err (crash.message ++ "\n"))
    return result.exitCode.toUInt32
