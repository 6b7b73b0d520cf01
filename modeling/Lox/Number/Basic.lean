/-! Binary floating-point numbers, given by their exact values. Every finite double is a
whole multiple of the least positive one, 2^-1074, so a finite number is a sign and a count
of such units, and two finite numbers are equal exactly when they have the same bits. -/

namespace Lox

/-- A number. `finite negative units` is ± `units` · 2^-1074; both zeros are finite. -/
inductive Number where
  | nan
  | infinite (negative : Bool)
  | finite (negative : Bool) (units : Nat)
  deriving DecidableEq, Repr, Inhabited

namespace Number

/-- How many units make one: 2^1074. -/
def one : Nat := Nat.pow 2 1074

/-- The sign and count of a finite number as one integer; both zeros give 0. -/
def signed (negative : Bool) (units : Nat) : Int :=
  if negative then -(units : Int) else units

/-- The same magnitude with the other sign. -/
def neg : Number → Number
  | .nan => .nan
  | .infinite negative => .infinite (!negative)
  | .finite negative units => .finite (!negative) units

/-- The order of two numbers; a NaN stands in no order, and the two zeros are equal. -/
def compare? : Number → Number → Option Ordering
  | .nan, _ => none
  | _, .nan => none
  | .infinite a, .infinite b => some (compare (!a) (!b))
  | .infinite a, .finite _ _ => some (if a then .lt else .gt)
  | .finite _ _, .infinite b => some (if b then .gt else .lt)
  | .finite a m, .finite b n => some (compare (signed a m) (signed b n))

def eq (x y : Number) : Bool := x.compare? y == some .eq

def lt (x y : Number) : Bool := x.compare? y == some .lt

def le (x y : Number) : Bool := x.lt y || x.eq y

def isFinite : Number → Bool
  | .finite _ _ => true
  | _ => false

end Number

end Lox
