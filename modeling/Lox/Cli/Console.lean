import Lox.Run

/-! What a command writes, and in which order. Texts and tables are left to a terminal, which shows
them in its own way; log records are written as they are. -/

namespace Lox.Cli

/-- Something written to standard output or standard error. -/
inductive Emission where
  | out (text : String)
  | err (text : String)
  deriving DecidableEq, Repr

namespace Emission

def outText : Emission → String
  | .out text => text
  | .err _ => ""

def errText : Emission → String
  | .out _ => ""
  | .err text => text

end Emission

structure Column where
  heading : String
  flushRight : Bool := false
  deriving DecidableEq, Repr

/-- A table before it is drawn. -/
structure Table where
  title : String
  columns : List Column
  rows : List (List String)
  deriving DecidableEq, Repr

/-- What texts and tables look like when they are printed. -/
structure Terminal where
  shown : String → String
  drawn : Table → String

namespace Console

/-- Prints a value or another result. -/
def value (terminal : Terminal) (text : String) : Emission := .out (terminal.shown text ++ "\n")

/-- Prints a message to standard error. -/
def message (terminal : Terminal) (text : String) : Emission := .err (terminal.shown text ++ "\n")

def diagnostics (terminal : Terminal) (ds : List Diagnostic) : List Emission :=
  ds.map fun d => message terminal d.text

/-- Writes log records if they are wanted; `stamp` stands for the time. -/
def log (wanted : Bool) (stamp : String) (records : List LogRecord) : List Emission :=
  if wanted then
    records.map fun r => .err (stamp ++ " - " ++ r.origin ++ " - DEBUG - " ++ r.message ++ "\n")
  else []

end Console

end Lox.Cli
