import Lox.Proofs.Typing

/-! Folding and regrouping. Parts of a tree that have a value may be written as that value, and
parentheses may be put in or left out, without any effect on how the tree ends. This holds also where
another part of the tree fails: the fault is then the same one. -/

namespace Lox.Proofs

/-- `Simplifies expr other`: some parts of the tree, none inside another, are folded to literals of their
values, and groupings are put in or left out anywhere. -/
inductive Simplifies : Expr → Expr → Prop where
  | fold {expr : Expr} {value : Value} (gives : expr.eval = .ok value) : Simplifies expr (.literal value)
  | wrap {expr other : Expr} (within : Simplifies expr other) : Simplifies expr (.grouping other)
  | unwrap {expr other : Expr} (within : Simplifies expr other) : Simplifies (.grouping expr) other
  | grouping {expr other : Expr} (within : Simplifies expr other) : Simplifies (.grouping expr) (.grouping other)
  | unary {op : UnaryOp} {operand operand' : Expr} {line : Int} (within : Simplifies operand operand') :
      Simplifies (.unary op operand line) (.unary op operand' line)
  | binary {op : BinaryOp} {left left' right right' : Expr} {line : Int} (first : Simplifies left left')
      (second : Simplifies right right') : Simplifies (.binary op left right line) (.binary op left' right' line)

/-- An operator sees of its operand only how the operand ends. -/
theorem eval_unary_congr {operand operand' : Expr} (same : operand'.eval = operand.eval) (op : UnaryOp) (line : Int) :
    (Expr.unary op operand' line).eval = (Expr.unary op operand line).eval := by
  rw [Expr.eval, Expr.eval, same]

theorem eval_binary_congr {left left' right right' : Expr} (first : left'.eval = left.eval)
    (second : right'.eval = right.eval) (op : BinaryOp) (line : Int) :
    (Expr.binary op left' right' line).eval = (Expr.binary op left right line).eval := by
  rw [Expr.eval, Expr.eval, first, second]

/-- Folding parts of a tree to their values and regrouping it changes neither the value it gives nor
the fault it ends with. -/
theorem eval_simplified (expr other : Expr) (simplifies : Simplifies expr other) : other.eval = expr.eval := by
  induction simplifies with
  | fold gives => rw [gives, Expr.eval]
  | wrap _ ih => rw [Expr.eval, ih]
  | unwrap _ ih => rw [Expr.eval, ih]
  | grouping _ ih => rw [Expr.eval, Expr.eval, ih]
  | unary _ ih => exact eval_unary_congr ih _ _
  | binary _ _ ihFirst ihSecond => exact eval_binary_congr ihFirst ihSecond _ _

/-- The tree of `(-(0 / 0) != nan) + -("a")`, with the given comparison for its left operand and the
given operand for its sign. -/
def spoiltFold (comparison operand : Expr) : Expr :=
  .binary .plus comparison (.unary .negate operand 2) 3

theorem eval_spoiltFold :
    Simplifies (spoiltFold (comparedQuotient (.number .nan)) (.grouping (.literal (.string "a"))))
      (spoiltFold (.grouping (.literal (.boolean true))) (.literal (.string "a"))) ∧
    (spoiltFold (comparedQuotient (.number .nan)) (.grouping (.literal (.string "a")))).eval =
      .error (.unary .negate (.string "a") 2) ∧
    (spoiltFold (.grouping (.literal (.boolean true))) (.literal (.string "a"))).eval =
      .error (.unary .negate (.string "a") 2) := by
  have differs : (comparedQuotient (.number .nan)).eval = .ok (.boolean true) := rfl
  have simplifies : Simplifies (spoiltFold (comparedQuotient (.number .nan)) (.grouping (.literal (.string "a"))))
      (spoiltFold (.grouping (.literal (.boolean true))) (.literal (.string "a"))) :=
    .binary (.wrap (.fold differs)) (.unary (.unwrap (.fold rfl)))
  have fails : (spoiltFold (comparedQuotient (.number .nan)) (.grouping (.literal (.string "a")))).eval =
      .error (.unary .negate (.string "a") 2) := rfl
  exact ⟨simplifies, fails, (eval_simplified _ _ simplifies).trans fails⟩

end Lox.Proofs
