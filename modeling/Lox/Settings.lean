import Lox.Files
import Lox.Text.Blank
import Lox.Text.Case
import Lox.Text.Utf8
import Lox.Toml.Document

/-! Settings of the command line: defaults, overridden by the `[repl]` table of a TOML file,
overridden by environment variables. -/

namespace Lox

inductive LogLevel where
  | critical
  | error
  | warning
  | info
  | debug
  deriving DecidableEq, Repr

namespace LogLevel

def all : List LogLevel := [.critical, .error, .warning, .info, .debug]

def name : LogLevel → String
  | .critical => "CRITICAL"
  | .error => "ERROR"
  | .warning => "WARNING"
  | .info => "INFO"
  | .debug => "DEBUG"

def severity : LogLevel → Nat
  | .critical => 50
  | .error => 40
  | .warning => 30
  | .info => 20
  | .debug => 10

/-- The level of a name in capital or small letters, with blanks around it. -/
def ofText? (text : String) : Option LogLevel :=
  all.find? fun level => level.name.toList = Text.upper (Text.strip text.toList)

end LogLevel

structure Settings where
  prompt : String := "> "
  logLevel : LogLevel := .warning
  color : Bool := true
  deriving DecidableEq, Repr

/-- The variables that override settings; an empty one counts as unset. -/
structure Environment where
  prompt : Option String := none
  logLevel : Option String := none
  color : Option String := none
  deriving DecidableEq, Repr

/-- Why settings could not be loaded. -/
inductive SettingsError where
  | isDirectory (source : String)
  | notUtf8 (fault : Text.Utf8Fault)
  | malformed (source : String)
  | notTable (source : String) (found : Toml.Value)
  | wrongType (source : String) (key expected : String) (found : Toml.Value)
  | badLevel (text : String)

namespace SettingsError

def message : SettingsError → String
  | .isDirectory source => "[Errno 21] Is a directory: " ++ Text.quoted source
  | .notUtf8 fault => fault.message
  | .malformed source => "Invalid " ++ source ++ ": <toml error>"
  | .notTable source found =>
    "Invalid " ++ source ++ ": 'repl' must be a table, got " ++ found.typeName
  | .wrongType source key expected found =>
    "Invalid " ++ source ++ ": repl." ++ key ++ " must be a " ++ expected ++ ", got "
      ++ found.typeName ++ " " ++ found.debugText
  | .badLevel text =>
    "Invalid log level: " ++ Text.quoted text ++ " (expected one of "
      ++ ", ".intercalate (LogLevel.all.map LogLevel.name) ++ ")"

end SettingsError

namespace Settings

/-- A level by its name. -/
def level (text : String) : Except SettingsError LogLevel :=
  match LogLevel.ofText? text with
  | some level => .ok level
  | none => .error (.badLevel text)

/-- What a `[repl]` table says. -/
structure Layer where
  prompt : Option String := none
  logLevel : Option String := none
  color : Option Bool := none
  deriving DecidableEq, Repr

def stringEntry (source : String) (table : Toml.Table) (key : String) :
    Except SettingsError (Option String) :=
  match table.get? key with
  | none => .ok none
  | some (.string s) => .ok (some s)
  | some found => .error (.wrongType source key "str" found)

def booleanEntry (source : String) (table : Toml.Table) (key : String) :
    Except SettingsError (Option Bool) :=
  match table.get? key with
  | none => .ok none
  | some (.boolean b) => .ok (some b)
  | some found => .error (.wrongType source key "bool" found)

/-- The layer of a `[repl]` table; other keys of it are passed over. -/
def tableLayer (source : String) (table : Toml.Table) : Except SettingsError Layer := do
  let prompt ← stringEntry source table "prompt"
  let logLevel ← stringEntry source table "log_level"
  let color ← booleanEntry source table "color"
  return { prompt, logLevel, color }

/-- The layer of a document; `source` is how messages call it. -/
def documentLayer (source : String) (document : Toml.Table) : Except SettingsError Layer :=
  match document.get? "repl" with
  | none => .ok {}
  | some (.table table) => tableLayer source table
  | some found => .error (.notTable source found)

def nonempty (text : Option String) : Option String := text.filter (· ≠ "")

/-- Any text but these four turns colors on. -/
def isColorOn (text : String) : Bool :=
  String.ofList (Text.lower (Text.strip text.toList)) ∉ ["0", "false", "no", "off"]

/-- Settings from a document, if there is one, and the environment. -/
def resolve (source : String) (document : Option Toml.Table) (env : Environment) :
    Except SettingsError Settings := do
  let layer ← match document with
    | some document => documentLayer source document
    | none => .ok {}
  let logLevel ← match nonempty env.logLevel <|> layer.logLevel with
    | some text => level text
    | none => .ok .warning
  return {
    prompt := (nonempty env.prompt <|> layer.prompt).getD "> "
    logLevel
    color := ((nonempty env.color).map isColorOn <|> layer.color).getD true }

/-- Where settings are looked for when no file is named. -/
def defaultPath : Path := ⟨"", ["lox.toml"]⟩

/-- The document at a path, if there is anything at it. -/
def readDocument (files : Files) (path : Path) (source : String) :
    Except SettingsError (Option Toml.Table) :=
  match files.get? path with
  | none => .ok none
  | some .directory => .error (.isDirectory source)
  | some (.file bytes) =>
    match Text.decodeUtf8 bytes with
    | .error fault => .error (.notUtf8 fault)
    | .ok text =>
      match Toml.parse? text with
      | none => .error (.malformed source)
      | some document => .ok (some document)

/-- Loads settings from the file at a path, or from the default one, which messages show
with the working directory before it. -/
def load (files : Files) (workingDirectory : String) (path : Option Path) (env : Environment) :
    Except SettingsError Settings := do
  let source := match path with
    | some path => path.text
    | none => workingDirectory ++ "/" ++ defaultPath.text
  let document ← readDocument files (path.getD defaultPath) source
  resolve source document env

end Settings

end Lox
