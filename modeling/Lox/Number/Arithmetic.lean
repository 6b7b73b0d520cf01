import Lox.Number.Rounding

/-! The four operations of double arithmetic: the exact result, rounded once. -/

namespace Lox.Number

/-- An exact sum of zero is negative only if both operands are. -/
def add : Number → Number → Number
  | .nan, _ => .nan
  | _, .nan => .nan
  | .infinite a, .infinite b => if a = b then .infinite a else .nan
  | .infinite a, .finite _ _ => .infinite a
  | .finite _ _, .infinite b => .infinite b
  | .finite a m, .finite b n =>
      let sum := signed a m + signed b n
      if sum = 0 then .finite (a && b) 0 else Format.double.round (sum < 0) sum.natAbs 1

def sub (x y : Number) : Number := x.add y.neg

def mul : Number → Number → Number
  | .nan, _ => .nan
  | _, .nan => .nan
  | .infinite a, .infinite b => .infinite (a ^^ b)
  | .infinite a, .finite b n => if n = 0 then .nan else .infinite (a ^^ b)
  | .finite a m, .infinite b => if m = 0 then .nan else .infinite (a ^^ b)
  | .finite a m, .finite b n => Format.double.round (a ^^ b) (m * n) one

/-- Dividing by zero gives an infinity, or a NaN when there is nothing to divide. -/
def div : Number → Number → Number
  | .nan, _ => .nan
  | _, .nan => .nan
  | .infinite _, .infinite _ => .nan
  | .infinite a, .finite b _ => .infinite (a ^^ b)
  | .finite a _, .infinite b => .finite (a ^^ b) 0
  | .finite a m, .finite b n =>
      if n = 0 then if m = 0 then .nan else .infinite (a ^^ b)
      else Format.double.round (a ^^ b) (m * one) n

end Lox.Number
