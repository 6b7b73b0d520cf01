import Lox.Toml.Value

/-! The parts of TOML that hold no other values: comments, keys, strings, numbers, dates and
times. Each reader takes its text from the front and gives the rest, or fails. -/

namespace Lox.Toml

def isSpace (c : Char) : Bool := c = ' ' || c = '\t'

def skipSpaces (text : List Char) : List Char := text.dropWhile isSpace

def isBareKeyChar (c : Char) : Bool := c.isAlphanum || c = '-' || c = '_'

/-- Controls that may stand in no comment and no string of one line: all but the tab. -/
def isControl (c : Char) : Bool := (c.toNat < 0x20 && c ≠ '\t') || c.toNat = 0x7f

/-- The rest of the line after a comment, which may be absent. -/
def skipComment (text : List Char) : Option (List Char) :=
  match text with
  | '#' :: comment =>
    if (comment.takeWhile (· ≠ '\n')).any isControl then none
    else some (comment.dropWhile (· ≠ '\n'))
  | _ => some text

/-- Skips spaces, line ends and comments, as between the items of an array. -/
def skipFiller : Nat → List Char → Option (List Char)
  | 0, text => some text
  | fuel + 1, text =>
    match text.dropWhile fun c => isSpace c || c = '\n' with
    | '#' :: comment => do skipFiller fuel (← skipComment ('#' :: comment))
    | rest => some rest

/-! Strings -/

def hexValue? (c : Char) : Option Nat :=
  if c.isDigit then some (c.toNat - '0'.toNat)
  else if 'a' ≤ c ∧ c ≤ 'f' then some (c.toNat - 'a'.toNat + 10)
  else if 'A' ≤ c ∧ c ≤ 'F' then some (c.toNat - 'A'.toNat + 10)
  else none

/-- A character by the number of its code point in `count` hexadecimal digits. -/
def codePoint (count : Nat) (text : List Char) : Option (List Char × List Char) := do
  let digits := text.take count
  if digits.length ≠ count then none
  else
    let n := (← digits.mapM hexValue?).foldl (fun n digit => n * 16 + digit) 0
    if n.isValidChar then some ([Char.ofNat n], text.drop count) else none

/-- What follows a backslash. In a string of several lines it may join lines. -/
def escape (multiline : Bool) (text : List Char) : Option (List Char × List Char) :=
  let skipLines (rest : List Char) := rest.dropWhile fun c => isSpace c || c = '\n'
  match text with
  | 'u' :: rest => codePoint 4 rest
  | 'U' :: rest => codePoint 8 rest
  | 'b' :: rest => some (['\x08'], rest)
  | 't' :: rest => some (['\t'], rest)
  | 'n' :: rest => some (['\n'], rest)
  | 'f' :: rest => some (['\x0c'], rest)
  | 'r' :: rest => some (['\r'], rest)
  | '"' :: rest => some (['"'], rest)
  | '\\' :: rest => some (['\\'], rest)
  | c :: rest =>
    if multiline && c = '\n' then some ([], skipLines rest)
    else if multiline && isSpace c then
      match skipSpaces rest with
      | [] => some ([], [])
      | '\n' :: more => some ([], skipLines more)
      | _ => none
    else none
  | [] => none

/-- The inside of a string with escapes, through its closing quotes. -/
def basicString (multiline : Bool) : Nat → List Char → Option (List Char × List Char)
  | 0, _ => none
  | fuel + 1, text =>
    match text with
    | [] => none
    | '\\' :: rest => do
      let (escaped, rest) ← escape multiline rest
      let (inner, rest) ← basicString multiline fuel rest
      return (escaped ++ inner, rest)
    | '"' :: rest =>
      if multiline then
        match rest with
        | '"' :: '"' :: after => some ([], after)
        | _ => do
          let (inner, rest) ← basicString multiline fuel rest
          return ('"' :: inner, rest)
      else some ([], rest)
    | c :: rest =>
      if isControl c && !(multiline && c = '\n') then none
      else do
        let (inner, rest) ← basicString multiline fuel rest
        return (c :: inner, rest)

/-- The inside of a string without escapes, through its closing quote. -/
def literalString (text : List Char) : Option (List Char × List Char) :=
  let inner := text.takeWhile (· ≠ '\'')
  match text.dropWhile (· ≠ '\'') with
  | _ :: rest => if inner.any isControl then none else some (inner, rest)
  | [] => none

/-- The inside of a string of several lines without escapes, through its closing quotes. -/
def literalLines : List Char → Option (List Char × List Char)
  | [] => none
  | '\'' :: '\'' :: '\'' :: rest => some ([], rest)
  | c :: rest =>
    if isControl c && c ≠ '\n' then none
    else do
      let (inner, rest) ← literalLines rest
      return (c :: inner, rest)

/-- Up to two more quotes before the closing three belong to the string. -/
def extraQuotes (quote : Char) : List Char × List Char → List Char × List Char
  | (inner, first :: second :: rest) =>
    if first ≠ quote then (inner, first :: second :: rest)
    else if second ≠ quote then (inner ++ [quote], second :: rest)
    else (inner ++ [quote, quote], rest)
  | (inner, [first]) => if first = quote then (inner ++ [quote], []) else (inner, [first])
  | (inner, []) => (inner, [])

/-- A line end right after the opening quotes is no part of the string. -/
def dropFirstNewline : List Char → List Char
  | '\n' :: rest => rest
  | text => text

/-- Any string, from its opening quote. -/
def string (text : List Char) : Option (String × List Char) :=
  let inner : Option (List Char × List Char) :=
    match text with
    | '"' :: '"' :: '"' :: rest =>
      (basicString true (rest.length + 1) (dropFirstNewline rest)).map (extraQuotes '"')
    | '"' :: rest => basicString false (rest.length + 1) rest
    | '\'' :: '\'' :: '\'' :: rest =>
      (literalLines (dropFirstNewline rest)).map (extraQuotes '\'')
    | '\'' :: rest => literalString rest
    | _ => none
  inner.map fun (inner, rest) => (String.ofList inner, rest)

/-! Keys -/

/-- One part of a key: bare, or a string of one line. -/
def keyPart (text : List Char) : Option (String × List Char) :=
  let inner : Option (List Char × List Char) :=
    match text with
    | '"' :: rest => basicString false (rest.length + 1) rest
    | '\'' :: rest => literalString rest
    | _ =>
      let bare := text.takeWhile isBareKeyChar
      if bare.isEmpty then none else some (bare, text.dropWhile isBareKeyChar)
  inner.map fun (inner, rest) => (String.ofList inner, rest)

/-- A key of parts with points between them, and the spaces after it. -/
def key : Nat → List Char → Option (List String × List Char)
  | 0, _ => none
  | fuel + 1, text => do
    let (part, rest) ← keyPart text
    match skipSpaces rest with
    | '.' :: rest =>
      let (parts, rest) ← key fuel (skipSpaces rest)
      return (part :: parts, rest)
    | rest => return ([part], rest)

/-! Numbers -/

/-- Digits after the first, each perhaps with an underscore before it. -/
def moreDigits (isDigit : Char → Bool) : List Char → List Char × List Char
  | '_' :: c :: rest =>
    if isDigit c then
      let (digits, rest) := moreDigits isDigit rest
      (c :: digits, rest)
    else ([], '_' :: c :: rest)
  | c :: rest =>
    if isDigit c then
      let (digits, rest) := moreDigits isDigit rest
      (c :: digits, rest)
    else ([], c :: rest)
  | [] => ([], [])

def digits (isDigit : Char → Bool) (text : List Char) : Option (List Char × List Char) :=
  match text with
  | c :: rest =>
    if isDigit c then
      let (digits, rest) := moreDigits isDigit rest
      some (c :: digits, rest)
    else none
  | [] => none

/-- A whole number in another base, after its `0` and the letter of the base. -/
def based (base : Nat) (text : List Char) : Option (Value × List Char) := do
  let isDigit (c : Char) : Bool := (hexValue? c).any (· < base)
  let (digits, rest) ← digits isDigit text
  let n := (digits.filterMap hexValue?).foldl (fun n digit => n * base + digit) 0
  return (.integer n, rest)

def sign (text : List Char) : Bool × List Char :=
  match text with
  | '-' :: rest => (true, rest)
  | '+' :: rest => (false, rest)
  | _ => (false, text)

/-- The double nearest to a decimal. Exponents so large or small that they alone decide the
result are cut short first. -/
def nearestDouble (negative : Bool) (d : Decimal) : Number :=
  let lowest := -((digitCount d.digits : Int) + 400)
  .ofDecimal negative ⟨d.digits, max lowest (min 400 d.exponent)⟩

/-- A decimal number; a fraction or an exponent makes it a float. -/
def decimal (text : List Char) : Option (Value × List Char) := do
  let (negative, text) := sign text
  let (whole, rest) ←
    match text with
    | '0' :: rest => some (['0'], rest)
    | _ => digits Char.isDigit text
  let (places, afterPlaces) :=
    match rest with
    | '.' :: more => (digits Char.isDigit more).getD ([], rest)
    | _ => ([], rest)
  let (exponent, afterExponent) :=
    match afterPlaces with
    | c :: more =>
      let (below, more) := sign more
      match if c = 'e' ∨ c = 'E' then digits Char.isDigit more else none with
      | some (power, after) =>
        let power : Int := Decimal.ofDigits power
        (some (if below then -power else power), after)
      | none => (none, afterPlaces)
    | [] => (none, [])
  if places.isEmpty && exponent.isNone then
    let n : Int := Decimal.ofDigits whole
    return (.integer (if negative then -n else n), rest)
  else
    let d : Decimal := ⟨Decimal.ofDigits (whole ++ places), exponent.getD 0 - places.length⟩
    return (.float (nearestDouble negative d), afterExponent)

def number (text : List Char) : Option (Value × List Char) :=
  let ofBase :=
    match text with
    | '0' :: 'x' :: rest => based 16 rest
    | '0' :: 'o' :: rest => based 8 rest
    | '0' :: 'b' :: rest => based 2 rest
    | _ => none
  ofBase <|> decimal text

/-- Infinities and NaN, with or without a sign. -/
def special (text : List Char) : Option (Value × List Char) :=
  let (negative, rest) := sign text
  match rest with
  | 'i' :: 'n' :: 'f' :: rest => some (.float (.infinite negative), rest)
  | 'n' :: 'a' :: 'n' :: rest => some (.float .nan, rest)
  | _ => none

/-! Dates and times -/

/-- A number of exactly `count` digits within bounds. -/
def fixed (count low high : Nat) (text : List Char) : Option (Nat × List Char) :=
  let digits := text.take count
  if digits.length = count && digits.all Char.isDigit then
    let n := Decimal.ofDigits digits
    if low ≤ n && n ≤ high then some (n, text.drop count) else none
  else none

/-- Skips the one character that must come next. -/
def expect (c : Char) (text : List Char) : Option (List Char) :=
  match text with
  | first :: rest => if first = c then some rest else none
  | [] => none

/-- The fraction of a second in microseconds; further digits are dropped. -/
def microseconds (text : List Char) : Nat × List Char :=
  match text with
  | '.' :: rest =>
    let digits := rest.takeWhile Char.isDigit
    if digits.isEmpty then (0, text)
    else
      let six := (digits ++ List.replicate 6 '0').take 6
      (Decimal.ofDigits six, rest.dropWhile Char.isDigit)
  | _ => (0, text)

def time (text : List Char) : Option (Time × List Char) := do
  let (hour, rest) ← fixed 2 0 23 text
  let (minute, rest) ← fixed 2 0 59 (← expect ':' rest)
  let (second, rest) ← fixed 2 0 59 (← expect ':' rest)
  let (fraction, rest) := microseconds rest
  return (⟨hour, minute, second, fraction⟩, rest)

/-- The offset after a time, in minutes east; there may be none. -/
def offset (text : List Char) : Option Int × List Char :=
  let hours : Option (Int × List Char) :=
    match text with
    | c :: rest => do
      if c = '+' ∨ c = '-' then
        let (hour, rest) ← fixed 2 0 23 rest
        let (minute, rest) ← fixed 2 0 59 (← expect ':' rest)
        let minutes : Int := hour * 60 + minute
        return (if c = '-' then -minutes else minutes, rest)
      else if c = 'Z' ∨ c = 'z' then return (0, rest)
      else none
    | [] => none
  match hours with
  | some (minutes, rest) => (some minutes, rest)
  | none => (none, text)

/-- The form of a date; whether the calendar has it is decided later. -/
def dateForm (text : List Char) : Option (Date × List Char) := do
  let (year, rest) ← fixed 4 0 9999 text
  let (month, rest) ← fixed 2 1 12 (← expect '-' rest)
  let (day, rest) ← fixed 2 1 31 (← expect '-' rest)
  return (⟨year, month, day⟩, rest)

/-- What comes after a date: a time, if one follows a `T` or a space. -/
def afterDate (d : Date) (text : List Char) : Value × List Char :=
  let clock : Option (Time × List Char) :=
    match text with
    | c :: rest => if c = 'T' ∨ c = 't' ∨ c = ' ' then time rest else none
    | [] => none
  match clock with
  | some (t, rest) =>
    let (zone, rest) := offset rest
    (.moment d t zone, rest)
  | none => (.date d, text)

/-- A value that holds no other values and is no string: a date or time, else a number. -/
def scalar (text : List Char) : Option (Value × List Char) :=
  match dateForm text with
  | some (d, rest) => if d.isValid then some (afterDate d rest) else none
  | none =>
    match time text with
    | some (t, rest) => some (.time t, rest)
    | none => number text <|> special text

end Lox.Toml
