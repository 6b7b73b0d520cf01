import Lox.Value

/-! Expression trees and their two written forms: infix, as in source text, and prefix, with
the structure of every node in parentheses. -/

namespace Lox

inductive UnaryOp where
  | negate
  | not
  deriving DecidableEq, Repr

inductive BinaryOp where
  | equal
  | notEqual
  | less
  | lessOrEqual
  | greater
  | greaterOrEqual
  | plus
  | minus
  | multiply
  | divide
  deriving DecidableEq, Repr

namespace UnaryOp

def all : List UnaryOp := [.negate, .not]

/-- The name an error message gives the operator. -/
def name : UnaryOp → String
  | .negate => "Negate"
  | .not => "Not"

def symbol : UnaryOp → String
  | .negate => "-"
  | .not => "!"

def ofName? (name : String) : Option UnaryOp := all.find? (·.name == name)

end UnaryOp

namespace BinaryOp

def all : List BinaryOp :=
  [.equal, .notEqual, .less, .lessOrEqual, .greater, .greaterOrEqual, .plus, .minus, .multiply,
    .divide]

/-- The name an error message gives the operator. -/
def name : BinaryOp → String
  | .equal => "Equal"
  | .notEqual => "NotEqual"
  | .less => "LessThan"
  | .lessOrEqual => "LessThanOrEqual"
  | .greater => "GreaterThan"
  | .greaterOrEqual => "GreaterThanOrEqual"
  | .plus => "Plus"
  | .minus => "Minus"
  | .multiply => "Multiply"
  | .divide => "Divide"

def symbol : BinaryOp → String
  | .equal => "=="
  | .notEqual => "!="
  | .less => "<"
  | .lessOrEqual => "<="
  | .greater => ">"
  | .greaterOrEqual => ">="
  | .plus => "+"
  | .minus => "-"
  | .multiply => "*"
  | .divide => "/"

def ofName? (name : String) : Option BinaryOp := all.find? (·.name == name)

end BinaryOp

/-- An expression. An operator knows its line; a grouping stands for explicit parentheses. -/
inductive Expr where
  | literal (value : Value)
  | unary (op : UnaryOp) (operand : Expr) (line : Int)
  | binary (op : BinaryOp) (left right : Expr) (line : Int)
  | grouping (inner : Expr)
  deriving DecidableEq, Repr

namespace Expr

/-- A literal as source text: strings in quotes. -/
def literalText : Value → String
  | .string s => "\"" ++ s ++ "\""
  | value => value.text

/-- The expression as source text, with no parentheses but its own. -/
def infixText : Expr → String
  | .literal value => literalText value
  | .unary op operand _ => op.symbol ++ operand.infixText
  | .binary op left right _ => left.infixText ++ " " ++ op.symbol ++ " " ++ right.infixText
  | .grouping inner => "(" ++ inner.infixText ++ ")"

/-- The expression with every node but the literals in parentheses, operator first. -/
def prefixText : Expr → String
  | .literal value => literalText value
  | .unary op operand _ => "(" ++ op.symbol ++ " " ++ operand.prefixText ++ ")"
  | .binary op left right _ =>
    "(" ++ op.symbol ++ " " ++ left.prefixText ++ " " ++ right.prefixText ++ ")"
  | .grouping inner => "(group " ++ inner.prefixText ++ ")"

end Expr

end Lox
