import Lox.Number.Decimal

/-! The text of numbers. A single is written with the first count of significant digits, up to nine,
whose nearest decimal reads back as it; any other double with the fewest digits that read back as that
double. -/

namespace Lox.Number

/-- The first of 1, …, 9 significant digits whose correctly rounded decimal reads back as
the single. -/
def singleDecimal? (units : Nat) : Option Decimal :=
  (List.range 9).findSome? fun fewer =>
    let decimal := Decimal.nearest (fewer + 1) units one
    if (ofDecimal false decimal).toSingle = .finite false units then some decimal.trim else none

/-- The decimals of `count` digits just below and just above a magnitude. -/
def neighbours (count units : Nat) : Decimal × Decimal :=
  let exponent := Decimal.leading units one + 1 - count
  let below := units * Nat.pow 10 (-exponent).toNat / (one * Nat.pow 10 exponent.toNat)
  (⟨below, exponent⟩, ⟨below + 1, exponent⟩)

/-- The decimal of `count` digits that reads back as the double; of two such the nearer. -/
def doubleDecimalOf? (count units : Nat) : Option Decimal :=
  let (below, above) := neighbours count units
  [Decimal.nearest count units one, below, above].find? fun decimal =>
    ofDecimal false decimal = .finite false units

/-- The shortest decimal that reads back as the double; 17 digits always do. -/
def doubleDecimal (units : Nat) : Decimal :=
  ((List.range 17).findSome? fun fewer => doubleDecimalOf? (fewer + 1) units).getD
    (Decimal.nearest 17 units one) |>.trim

/-- Whether the full text of a decimal is positional: its leading digit stands at 10^-4 to
10^15. -/
def isPositional (d : Decimal) : Bool :=
  let leading := (digitCount d.digits : Int) - 1 + d.exponent
  d.digits = 0 || (-4 ≤ leading && leading ≤ 15)

/-- Positional text that shows a fractional part even when it is zero. -/
def withFraction (d : Decimal) : List Char :=
  if 0 ≤ d.exponent then d.positional ++ ['.', '0'] else d.positional

/-- Text with an exponent of a sign and at least two digits. -/
def scientific (d : Decimal) : List Char :=
  let digits := Decimal.digitText d.digits
  let leading := (digits.length : Int) - 1 + d.exponent
  let power := Decimal.digitText leading.natAbs
  let mantissa := if digits.length ≤ 1 then digits else digits.take 1 ++ '.' :: digits.drop 1
  mantissa ++ ['e', if leading < 0 then '-' else '+']
    ++ List.replicate (2 - power.length) '0' ++ power

def signText (negative : Bool) : List Char := if negative then ['-'] else []

/-- The text of a double that is no single: never an exponent, but the `.0` of its full text. -/
def doubleText (units : Nat) : List Char :=
  let decimal := doubleDecimal units
  if isPositional decimal then withFraction decimal else decimal.positional

/-- The magnitude of a finite number as the language prints it. -/
def magnitudeText (units : Nat) : List Char :=
  ((singleDecimal? units).map Decimal.positional).getD (doubleText units)

/-- A number as the language prints it, never with an exponent. -/
def text : Number → String
  | .nan => "NaN"
  | .infinite negative => if negative then "-inf" else "inf"
  | .finite negative units => String.ofList (signText negative ++ magnitudeText units)

/-- A number in full: the shortest text that reads back as the same double. -/
def fullText : Number → String
  | .nan => "nan"
  | .infinite negative => if negative then "-inf" else "inf"
  | .finite negative units =>
    let decimal := doubleDecimal units
    String.ofList (signText negative ++
      if isPositional decimal then withFraction decimal else scientific decimal)

end Lox.Number
