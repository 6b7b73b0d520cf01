import Lox.Cli.Arguments
import Lox.Cli.Session
import Lox.Cli.TokenTable
import Lox.Settings

/-! The command line: `run` a script or a session, show the `tokens` of a source, or show its
`ast`. Global options come before the command. -/

namespace Lox.Cli

/-- What the command line finds around it. -/
structure Surroundings where
  files : Files
  workingDirectory : String
  environment : Environment := {}
  release : String
  platform : String
  stamp : String
  terminal : Terminal

/-- An error that the program does not handle. -/
inductive Crash where
  | settings (error : SettingsError)
  | outOfTokens

namespace Crash

def message : Crash → String
  | .settings error => error.message
  | .outOfTokens => "list index out of range"

end Crash

/-- What the program does: what it writes, in order, and the code it exits with. -/
structure Result where
  emissions : List Emission := []
  exitCode : Nat := 0
  crash : Option Crash := none

/-- What a command line comes to: a result at once, or a session with whoever is at the
prompt. -/
inductive Plan where
  | result (result : Result)
  | session (style : SessionStyle)

namespace Result

def stdout (result : Result) : String := String.join (result.emissions.map Emission.outText)

def stderr (result : Result) : String := String.join (result.emissions.map Emission.errText)

/-- The command line makes no sense. -/
def misuse : Result := { emissions := [.err "<usage>"], exitCode := 2 }

def help : Result := { emissions := [.out "<usage>"] }

/-- A message and nothing else. -/
def refused (terminal : Terminal) (text : String) (code : ExitCode) : Result :=
  { emissions := [Console.message terminal text], exitCode := code.code }

/-- The program breaks off after what it has written. -/
def crashed (emissions : List Emission) (crash : Crash) : Result :=
  { emissions, exitCode := 1, crash := some crash }

end Result

inductive GlobalOption where
  | version
  | logLevel
  | config
  | help
  deriving DecidableEq, Repr

inductive CommandOption where
  | expr
  | help
  deriving DecidableEq, Repr

inductive Command where
  | run
  | tokens
  | ast
  deriving DecidableEq, Repr

namespace Command

def all : List Command := [.run, .tokens, .ast]

def name : Command → String
  | .run => "run"
  | .tokens => "tokens"
  | .ast => "ast"

def ofName? (name : String) : Option Command := all.find? (·.name == name)

def forms : Command → List (OptionForm CommandOption)
  | .run => [{ option := .help, long := "--help" }]
  | .tokens | .ast =>
    [{ option := .expr, long := "--expr", short := some 'e', takesValue := true },
      { option := .help, long := "--help" }]

/-- How many plain arguments a command may have. -/
def admits (command : Command) (count : Nat) : Bool := command = .run || count ≤ 1

end Command

def globalForms : List (OptionForm GlobalOption) :=
  [{ option := .version, long := "--version", short := some 'v' },
    { option := .logLevel, long := "--log-level", short := some 'l', takesValue := true },
    { option := .config, long := "--config", short := some 'c', takesValue := true },
    { option := .help, long := "--help" }]

namespace Source

/-- The text of a script file, with a line feed for each line end. -/
def ofFile (terminal : Terminal) (files : Files) (path : Path) : Except Result String :=
  match files.get? path with
  | some (.file bytes) =>
    match Text.decodeUtf8 bytes with
    | .ok text => .ok (String.ofList (Text.unifyNewlines text))
    | .error fault =>
      .error (.refused terminal ("Error: " ++ path.text ++ " is not valid UTF-8: "
        ++ fault.reason.message ++ " at byte " ++ toString fault.start) .badData)
  | _ => .error (.refused terminal ("Error: File not found: " ++ path.text) .noInput)

/-- The source that a command is about: a script or a text on the command line. -/
def choose (terminal : Terminal) (files : Files) (script : Option Path) (expr : Option String) :
    Except Result String :=
  match script, expr with
  | none, none => .error (.refused terminal "Provide either a script path or --expr." .usage)
  | none, some text => .ok text
  | some _, some _ =>
    .error (.refused terminal "Provide either a script path or --expr, not both." .usage)
  | some path, none => ofFile terminal files path

end Source

namespace Command

/-- What a failing command prints and exits with. -/
def failed (terminal : Terminal) (logged : List Emission) (reporter : Reporter) : Result :=
  { emissions := logged ++ Console.diagnostics terminal reporter.diagnostics
    exitCode := reporter.failureCode.code }

/-- Runs a source and prints its value. -/
def runSource (style : SessionStyle) (source : String) : Result :=
  let done := Lox.run source
  let printed := Session.printed style done
  if done.outcome.brokenOff then .crashed printed .outOfTokens
  else { emissions := printed, exitCode := done.outcome.exitCode.code }

/-- Prints the tokens of a source, also of one with faults. -/
def tokensOf (style : SessionStyle) (source : String) : Result :=
  let scanned := scan source
  let reporter := Reporter.recordAll {} scanned.problems
  let logged := Console.log style.logging style.stamp
    [(Event.scanned scanned.tokens.length scanned.lastLine).logRecord]
  let shown := logged ++ [.out (style.terminal.drawn (TokenTable.ofTokens scanned.tokens))]
  if reporter.hadError then failed style.terminal shown reporter else { emissions := shown }

/-- Prints the tree of a source that has one. -/
def astOf (style : SessionStyle) (source : String) : Result :=
  let scanned := scan source
  let reporter := Reporter.recordAll {} scanned.problems
  let logged (events : List Event) : List Emission :=
    Console.log style.logging style.stamp (events.map Event.logRecord)
  let start := Event.scanned scanned.tokens.length scanned.lastLine
  if reporter.hadError then failed style.terminal (logged [start]) reporter
  else
    match parse .expression scanned.tokens with
    | .fault .outOfTokens _ => .crashed (logged [start]) .outOfTokens
    | .fault (.unexpected found message) _ =>
      let problem := found.problem message
      failed style.terminal (logged [start, .parseFailed problem]) (reporter.record problem)
    | .tree expr _ _ =>
      { emissions := logged [start, .parsed expr] ++ [Console.value style.terminal expr.prefixText] }

def running (path : Path) (source : String) : LogRecord :=
  ⟨"loxpy.cli.main",
    "Running " ++ path.text ++ " (" ++ toString source.length ++ " chars)"⟩

/-- Runs one script, or plans a session when there is none. -/
def runScripts (files : Files) (style : SessionStyle) (scripts : List Path) : Plan :=
  match scripts with
  | [] => .session style
  | [path] =>
    match Source.ofFile style.terminal files path with
    | .error refusal => .result refusal
    | .ok source =>
      let result := runSource style source
      .result { result with
        emissions := Console.log style.logging style.stamp [running path source]
          ++ result.emissions }
  | _ => .result (.refused style.terminal "Usage: loxpy run [script]" .usage)

/-- Carries out a command with the arguments after its name. -/
def perform (command : Command) (around : Surroundings) (settings : Settings)
    (arguments : List String) : Plan :=
  match Arguments.separate command.forms true arguments with
  | none => .result .misuse
  | some (given, plain) =>
    if given.any (·.option = .help) then .result .help
    else if !command.admits plain.length then .result .misuse
    else
      let style := ⟨settings.prompt, settings.logLevel = .debug, around.stamp, around.terminal⟩
      let paths := plain.map Path.ofText
      let onSource (act : SessionStyle → String → Result) : Plan :=
        match Source.choose around.terminal around.files paths.head?
          (Arguments.last? given .expr) with
        | .error refusal => .result refusal
        | .ok source => .result (act style source)
      match command with
      | .run => runScripts around.files style paths
      | .tokens => onSource tokensOf
      | .ast => onSource astOf

end Command

/-- The settings that the global options ask for. -/
def settingsOf (around : Surroundings) (given : List (Given GlobalOption)) :
    Except SettingsError Settings := do
  let path := (Arguments.last? given .config).map Path.ofText
  let settings ← Settings.load around.files around.workingDirectory path around.environment
  match Arguments.last? given .logLevel with
  | none => return settings
  | some text => return { settings with logLevel := ← Settings.level text }

/-- What the first option that asks for information rather than a command gets. -/
def information? (around : Surroundings) (given : List (Given GlobalOption)) : Option Result :=
  given.findSome? fun g =>
    match g.option with
    | .version => some { emissions :=
        [.out ("loxpy version " ++ around.release ++ "\n"), .out (around.platform ++ "\n")] }
    | .help => some .help
    | _ => none

/-- What a command after the global options comes to. -/
def commandPlan (around : Surroundings) (given : List (Given GlobalOption)) (command : Command)
    (arguments : List String) : Plan :=
  match settingsOf around given with
  | .error (.isDirectory source) =>
    .result (.crashed [] (.settings (.isDirectory source)))
  | .error error => .result (.refused around.terminal ("Error: " ++ error.message) .usage)
  | .ok settings => command.perform around settings arguments

/-- What a command line comes to. Options after `--`, where a command should be, still count
if they ask for information. -/
def plan (around : Surroundings) (arguments : List String) : Plan :=
  match Arguments.separate globalForms false arguments with
  | none => .result .misuse
  | some (given, plain) =>
    match information? around given, plain with
    | some result, _ => .result result
    | none, [] => .result .misuse
    | none, name :: rest =>
      match Command.ofName? name with
      | some command => commandPlan around given command rest
      | none =>
        match Arguments.separate globalForms false plain with
        | some (late, _) => .result ((information? around late).getD .misuse)
        | none => .result .misuse

/-- The whole program on a given standard input. -/
def execute (around : Surroundings) (input : String) (arguments : List String) : Result :=
  match plan around arguments with
  | .result result => result
  | .session style => { emissions := Session.emissions style input }

/-- The paths that a command line may read from. -/
def pathsNamed (arguments : List String) : List Path :=
  match Arguments.separate globalForms false arguments with
  | none => []
  | some (given, plain) =>
    Settings.defaultPath :: (given.map (·.value) ++ plain).map Path.ofText

end Lox.Cli
