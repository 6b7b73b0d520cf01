import Lox.Number.Basic

/-! Rounding to nearest, ties to even, into a binary format. An exact value is a fraction of
natural numbers, counted in units of 2^-1074. -/

namespace Lox

/-- The whole number nearest to `num / den`; a half goes to the even neighbour. -/
def divEven (num den : Nat) : Nat :=
  let quotient := num / den
  let remainder := num % den
  if 2 * remainder < den ∨ 2 * remainder = den ∧ quotient % 2 = 0 then quotient else quotient + 1

/-- A binary format. Its numbers have at most `precision` significant bits, are multiples of
2^`finest` units, and lie below 2^`limit` units. -/
structure Format where
  precision : Nat
  finest : Nat
  limit : Nat
  deriving DecidableEq, Repr

namespace Format

def double : Format := ⟨53, 0, 2098⟩

def single : Format := ⟨24, 925, 1202⟩

/-- The exponent of the spacing between neighbours of the format around `num / den` units. -/
def spacing (format : Format) (num den : Nat) : Nat :=
  max format.finest ((num / den).log2 + 1 - format.precision)

/-- The multiple of the spacing nearest to `num / den` units. -/
def nearest (format : Format) (num den : Nat) : Nat :=
  let step := Nat.pow 2 (format.spacing num den)
  divEven num (den * step) * step

/-- The number of the format nearest to ± `num / den` units; too large a magnitude becomes
infinite, and the sign is kept in every case. -/
def round (format : Format) (negative : Bool) (num den : Nat) : Number :=
  let units := format.nearest num den
  if units < Nat.pow 2 format.limit then .finite negative units else .infinite negative

end Format

namespace Number

/-- The single nearest to a number. -/
def toSingle : Number → Number
  | .nan => .nan
  | .infinite negative => .infinite negative
  | .finite negative units => Format.single.round negative units 1

/-- A number that is its own nearest single, or a NaN. -/
def IsSingle (x : Number) : Prop := x.toSingle = x

instance (x : Number) : Decidable x.IsSingle := inferInstanceAs (Decidable (_ = _))

end Number

end Lox
