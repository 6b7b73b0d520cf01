import Lox.Number.Basic

/-! The 64-bit interchange pattern of a double: sign, 11 bits of exponent, 52 bits of
fraction. -/

namespace Lox.Number

/-- The leading bit of a normal significand, which the pattern leaves out. -/
def hidden : Nat := Nat.pow 2 52

def signBit (negative : Bool) : Nat := if negative then Nat.pow 2 63 else 0

/-- The double with the given pattern. -/
def ofBits (pattern : Nat) : Number :=
  let negative := pattern / Nat.pow 2 63 % 2 = 1
  let exponent := pattern / hidden % Nat.pow 2 11
  let fraction := pattern % hidden
  if exponent = 2047 then if fraction = 0 then .infinite negative else .nan
  else if exponent = 0 then .finite negative fraction
  else .finite negative ((hidden + fraction) * Nat.pow 2 (exponent - 1))

/-- The exponent and fraction fields of a finite double. -/
def magnitudeBits (units : Nat) : Nat :=
  if units < hidden then units
  else
    let scale := units.log2 - 52
    (scale + 1) * hidden + (units / Nat.pow 2 scale - hidden)

/-- The pattern of a double; all NaNs are written as the quiet one. -/
def toBits : Number → Nat
  | .nan => 0x7ff8000000000000
  | .infinite negative => signBit negative + 0x7ff0000000000000
  | .finite negative units => signBit negative + magnitudeBits units

end Lox.Number
