import Lox.Number.Text
import Lox.Number.Arithmetic
import Lox.Text.Quoted

/-! Runtime values, their types and how they are printed. -/

namespace Lox

inductive Value where
  | nil
  | boolean (b : Bool)
  | string (s : String)
  | number (x : Number)
  deriving DecidableEq, Repr, Inhabited

/-- The types a value can have. -/
inductive ValueType where
  | nil
  | boolean
  | string
  | number
  deriving DecidableEq, Repr

namespace ValueType

def name : ValueType → String
  | .nil => "Nil"
  | .boolean => "Boolean"
  | .string => "String"
  | .number => "Number"

end ValueType

namespace Value

def type : Value → ValueType
  | .nil => .nil
  | .boolean _ => .boolean
  | .string _ => .string
  | .number _ => .number

def isNumber : Value → Bool
  | .number _ => true
  | _ => false

/-- A value as it is printed; a string stands for itself. -/
def text : Value → String
  | .nil => "nil"
  | .boolean b => if b then "true" else "false"
  | .string s => s
  | .number x => x.text

/-- A value in full: a number by its whole double, a string still for itself. -/
def fullText : Value → String
  | .nil => "None"
  | .boolean b => if b then "True" else "False"
  | .string s => s
  | .number x => x.fullText

/-- A value in full with strings in quotes, as log records show it. -/
def debugText : Value → String
  | .string s => Text.quoted s
  | value => value.fullText

end Value

end Lox
