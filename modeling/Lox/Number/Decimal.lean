import Lox.Number.Rounding

/-! Decimal numerals beside binary numbers: reading digits, rounding to a count of
significant digits, and the positional text of a decimal. -/

namespace Lox

/-- The decimal `digits` · 10^`exponent`. -/
structure Decimal where
  digits : Nat
  exponent : Int
  deriving DecidableEq, Repr

/-- How many decimal digits a number has; zero has none. -/
def digitCount (n : Nat) : Nat :=
  if n = 0 then 0 else digitCount (n / 10) + 1

namespace Decimal

/-- A decimal as a fraction of natural numbers. -/
def fraction (d : Decimal) : Nat × Nat :=
  (d.digits * Nat.pow 10 d.exponent.toNat, Nat.pow 10 (-d.exponent).toNat)

/-- The exponent of the leading digit of `num / den`, for a positive fraction. -/
def leading (num den : Nat) : Int :=
  if den ≤ num then (digitCount (num / den) : Int) - 1 else -(digitCount ((den - 1) / num) : Int)

/-- The decimal of `count` significant digits nearest to `num / den`, ties to even. -/
def nearest (count num den : Nat) : Decimal :=
  if num = 0 then ⟨0, 0⟩
  else
    let exponent := leading num den + 1 - count
    ⟨divEven (num * Nat.pow 10 (-exponent).toNat) (den * Nat.pow 10 exponent.toNat), exponent⟩

/-- The same value without trailing zeros in its digits. -/
def trim (d : Decimal) : Decimal :=
  if h : d.digits = 0 then ⟨0, 0⟩
  else if d.digits % 10 = 0 then trim ⟨d.digits / 10, d.exponent + 1⟩
  else d
termination_by d.digits
decreasing_by omega

/-- The digits of a number, at least one. -/
def digitText (n : Nat) : List Char := Nat.toDigits 10 n

/-- Digits with a point before the last `places` of them, and a zero before a leading point. -/
def pointed (digits : List Char) (places : Nat) : List Char :=
  let padded := List.replicate (places + 1 - digits.length) '0' ++ digits
  let whole := padded.length - places
  padded.take whole ++ '.' :: padded.drop whole

/-- The text of a decimal without an exponent. -/
def positional (d : Decimal) : List Char :=
  if 0 ≤ d.exponent then digitText (d.digits * Nat.pow 10 d.exponent.toNat)
  else pointed (digitText d.digits) (-d.exponent).toNat

/-- The value of a run of decimal digits. -/
def ofDigits (digits : List Char) : Nat :=
  digits.foldl (fun value c => value * 10 + (c.toNat - '0'.toNat)) 0

/-- Reads digits with at most one point among them. -/
def ofNumeral (text : List Char) : Decimal :=
  let whole := text.takeWhile (· ≠ '.')
  let places := (text.dropWhile (· ≠ '.')).drop 1
  ⟨ofDigits (whole ++ places), -(places.length : Int)⟩

end Decimal

namespace Number

/-- The double nearest to a decimal. -/
def ofDecimal (negative : Bool) (d : Decimal) : Number :=
  Format.double.round negative (d.fraction.1 * one) d.fraction.2

end Number

end Lox
