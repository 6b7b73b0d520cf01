import Lox.Expr.Basic
import Lox.Diagnostic

/-! Evaluation. There are no conversions: an operator admits only operands of its types.
Numbers are computed as doubles and the result is rounded to a single. -/

namespace Lox

/-- An operator applied to operands it does not admit. -/
inductive EvalFault where
  | unary (op : UnaryOp) (operand : Value) (line : Int)
  | binary (op : BinaryOp) (left right : Value) (line : Int)
  deriving DecidableEq, Repr

namespace EvalFault

def message : EvalFault → String
  | .unary op operand _ =>
    "Cannot perform '" ++ op.name ++ "' on operand '" ++ operand.text ++ "'"
  | .binary op left right _ =>
    "Cannot perform '" ++ op.name ++ "' on operands '" ++ left.text ++ "' and '" ++ right.text
      ++ "'"

def line : EvalFault → Int
  | .unary _ _ line => line
  | .binary _ _ _ line => line

def problem (fault : EvalFault) : Problem :=
  ⟨.runtime, fault.message, some fault.line, ""⟩

end EvalFault

namespace UnaryOp

/-- The result of the operator, if it admits the operand. Negation is exact. -/
def result? : UnaryOp → Value → Option Value
  | .not, .boolean b => some (.boolean (!b))
  | .negate, .number x => some (.number x.neg)
  | _, _ => none

end UnaryOp

namespace BinaryOp

/-- The result of the operator, if it admits the operands. -/
def result? : BinaryOp → Value → Value → Option Value
  | .plus, .number x, .number y => some (.number (x.add y).toSingle)
  | .plus, .string s, .string t => some (.string (s ++ t))
  | .minus, .number x, .number y => some (.number (x.sub y).toSingle)
  | .multiply, .number x, .number y => some (.number (x.mul y).toSingle)
  | .divide, .number x, .number y => some (.number (x.div y).toSingle)
  | .less, .number x, .number y => some (.boolean (x.lt y))
  | .lessOrEqual, .number x, .number y => some (.boolean (x.le y))
  | .greater, .number x, .number y => some (.boolean (y.lt x))
  | .greaterOrEqual, .number x, .number y => some (.boolean (y.le x))
  | .equal, .number x, .number y => some (.boolean (x.eq y))
  | .equal, .string s, .string t => some (.boolean (s == t))
  | .equal, .boolean a, .boolean b => some (.boolean (a == b))
  | .notEqual, .number x, .number y => some (.boolean (!x.eq y))
  | .notEqual, .string s, .string t => some (.boolean (s != t))
  | .notEqual, .boolean a, .boolean b => some (.boolean (a != b))
  | _, _, _ => none

end BinaryOp

namespace Expr

/-- Evaluates operands from left to right; the first fault ends the evaluation. -/
def eval : Expr → Except EvalFault Value
  | .literal value => .ok value
  | .grouping inner => inner.eval
  | .unary op operand line =>
    match operand.eval with
    | .error fault => .error fault
    | .ok value =>
      match op.result? value with
      | some result => .ok result
      | none => .error (.unary op value line)
  | .binary op left right line =>
    match left.eval with
    | .error fault => .error fault
    | .ok first =>
      match right.eval with
      | .error fault => .error fault
      | .ok second =>
        match op.result? first second with
        | some result => .ok result
        | none => .error (.binary op first second line)

end Expr

end Lox
