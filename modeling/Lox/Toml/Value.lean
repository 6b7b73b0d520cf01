import Lox.Number.Text
import Lox.Text.Quoted

/-! Values of a TOML document, and how messages name their types and show them. -/

namespace Lox.Toml

structure Date where
  year : Nat
  month : Nat
  day : Nat
  deriving DecidableEq, Repr

structure Time where
  hour : Nat
  minute : Nat
  second : Nat
  microsecond : Nat
  deriving DecidableEq, Repr

/-- A value. The offset of a moment counts minutes east; a local moment has none. -/
inductive Value where
  | string (s : String)
  | integer (n : Int)
  | float (x : Number)
  | boolean (b : Bool)
  | date (d : Date)
  | time (t : Time)
  | moment (d : Date) (t : Time) (offset : Option Int)
  | array (items : List Value)
  | table (entries : List (String × Value))

/-- The entries of a table in the order they were first written. -/
abbrev Table := List (String × Value)

namespace Date

def isLeap (year : Nat) : Bool := year % 4 = 0 && (year % 100 ≠ 0 || year % 400 = 0)

def daysIn (year month : Nat) : Nat :=
  if month = 2 then if isLeap year then 29 else 28
  else if month ∈ [4, 6, 9, 11] then 30
  else 31

/-- Whether the calendar has the day; years count from 1. -/
def isValid (d : Date) : Bool :=
  1 ≤ d.year && 1 ≤ d.month && d.month ≤ 12 && 1 ≤ d.day && d.day ≤ daysIn d.year d.month

end Date

namespace Value

def typeName : Value → String
  | .string _ => "str"
  | .integer _ => "int"
  | .float _ => "float"
  | .boolean _ => "bool"
  | .date _ => "date"
  | .time _ => "time"
  | .moment _ _ _ => "datetime"
  | .array _ => "list"
  | .table _ => "dict"

/-- The type with the module that it belongs to, for those that have one. -/
def qualifiedTypeName (value : Value) : String :=
  match value with
  | .date _ | .time _ | .moment _ _ _ => "datetime." ++ value.typeName
  | _ => value.typeName

def commaSeparated (numbers : List Nat) : String :=
  ", ".intercalate (numbers.map toString)

/-- The fields of a time that are shown: not the trailing zeros after the minute. -/
def timeFields (t : Time) : List Nat :=
  if t.microsecond ≠ 0 then [t.hour, t.minute, t.second, t.microsecond]
  else if t.second ≠ 0 then [t.hour, t.minute, t.second]
  else [t.hour, t.minute]

def dateFields (d : Date) : List Nat := [d.year, d.month, d.day]

/-- An offset is shown in days and seconds, and only the days may be negative. -/
def offsetText (minutes : Int) : String :=
  let seconds := minutes * 60
  let days := seconds.fdiv 86400
  let rest := seconds.fmod 86400
  if minutes = 0 then "datetime.timezone.utc"
  else
    let days := if days = 0 then "" else "days=" ++ toString days ++ ", "
    "datetime.timezone(datetime.timedelta(" ++ days ++ "seconds=" ++ toString rest ++ "))"

mutual

/-- A value as messages show it. -/
def debugText : Value → String
  | .string s => Text.quoted s
  | .integer n => toString n
  | .float x => x.fullText
  | .boolean b => if b then "True" else "False"
  | .date d => "datetime.date(" ++ commaSeparated (dateFields d) ++ ")"
  | .time t => "datetime.time(" ++ commaSeparated (timeFields t) ++ ")"
  | .moment d t none => "datetime.datetime(" ++ commaSeparated (dateFields d ++ timeFields t) ++ ")"
  | .moment d t (some offset) =>
    "datetime.datetime(" ++ commaSeparated (dateFields d ++ timeFields t) ++ ", tzinfo="
      ++ offsetText offset ++ ")"
  | .array items => "[" ++ itemsText items ++ "]"
  | .table entries => "\x7b" ++ entriesText entries ++ "\x7d"

def itemsText : List Value → String
  | [] => ""
  | value :: rest => value.debugText ++ laterItemsText rest

def laterItemsText : List Value → String
  | [] => ""
  | value :: rest => ", " ++ value.debugText ++ laterItemsText rest

def entriesText : List (String × Value) → String
  | [] => ""
  | (key, value) :: rest => Text.quoted key ++ ": " ++ value.debugText ++ laterEntriesText rest

def laterEntriesText : List (String × Value) → String
  | [] => ""
  | (key, value) :: rest =>
    ", " ++ Text.quoted key ++ ": " ++ value.debugText ++ laterEntriesText rest

end

end Value

end Lox.Toml
