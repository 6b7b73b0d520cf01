import Lox.Token.Basic

/-! One stretch of source text: a token, something to skip, or a fault. Every rule takes as
much text as it can. -/

namespace Lox

/-- What is wrong with a stretch of text. -/
inductive ScanFault where
  | unrecognized (c : Char)
  | unterminatedString
  | unterminatedComment
  deriving DecidableEq, Repr

namespace ScanFault

def message : ScanFault → String
  | .unrecognized c => "Unrecognized character: " ++ String.singleton c
  | .unterminatedString => "Unterminated string."
  | .unterminatedComment => "Unterminated block comment."

end ScanFault

/-- What a stretch of text is. -/
inductive Piece where
  | token (kind : Kind)
  | blank
  | fault (cause : ScanFault)
  deriving DecidableEq, Repr

/-- A stretch of text and the text after it. -/
structure Stretch where
  piece : Piece
  taken : List Char
  rest : List Char
  deriving DecidableEq, Repr

namespace Lexeme

def isWordStart (c : Char) : Bool := c.isAlpha || c == '_'

def isWordChar (c : Char) : Bool := isWordStart c || c.isDigit

def isSpace (c : Char) : Bool := c == ' ' || c == '\t' || c == '\r' || c == '\n'

/-- Symbols that no further character can extend. -/
def symbol? : Char → Option Symbol
  | '(' => some .leftParen
  | ')' => some .rightParen
  | '{' => some .leftBrace
  | '}' => some .rightBrace
  | ',' => some .comma
  | '.' => some .dot
  | '-' => some .minus
  | '+' => some .plus
  | ';' => some .semicolon
  | '*' => some .star
  | _ => none

/-- Symbols that a following `=` extends, each with its extension. -/
def comparison? : Char → Option (Symbol × Symbol)
  | '!' => some (.bang, .bangEqual)
  | '=' => some (.equal, .equalEqual)
  | '<' => some (.less, .lessEqual)
  | '>' => some (.greater, .greaterEqual)
  | _ => none

/-- The text through the first `*/` and the text after it. -/
def closeComment : List Char → Option (List Char × List Char)
  | [] => none
  | '*' :: '/' :: rest => some (['*', '/'], rest)
  | c :: rest => (closeComment rest).map fun (taken, rest) => (c :: taken, rest)

/-- Digits, then a fractional part only if a digit follows the point. -/
def numeral (text : List Char) : List Char × List Char :=
  let whole := text.takeWhile Char.isDigit
  match text.dropWhile Char.isDigit with
  | '.' :: rest =>
    let places := rest.takeWhile Char.isDigit
    if places.isEmpty then (whole, '.' :: rest)
    else (whole ++ '.' :: places, rest.dropWhile Char.isDigit)
  | rest => (whole, rest)

/-- A stretch that begins with `/`. -/
def slash (rest : List Char) : Stretch :=
  match rest with
  | '/' :: more =>
    ⟨.blank, '/' :: '/' :: more.takeWhile (· ≠ '\n'), more.dropWhile (· ≠ '\n')⟩
  | '*' :: more =>
    match closeComment more with
    | some (comment, after) => ⟨.blank, '/' :: '*' :: comment, after⟩
    | none => ⟨.fault .unterminatedComment, '/' :: '*' :: more, []⟩
  | _ => ⟨.token (.symbol .slash), ['/'], rest⟩

/-- A stretch that begins with a quote; there are no escapes, and newlines are allowed. -/
def quoted (rest : List Char) : Stretch :=
  let inner := rest.takeWhile (· ≠ '"')
  match rest.dropWhile (· ≠ '"') with
  | quote :: after => ⟨.token .string, '"' :: inner ++ [quote], after⟩
  | [] => ⟨.fault .unterminatedString, '"' :: inner, []⟩

def wordKind (word : List Char) : Kind :=
  match Keyword.ofText? (String.ofList word) with
  | some k => .keyword k
  | none => .identifier

/-- A word or numeral at the mark; if there is none, the character `c` is at fault. -/
def word (marked : List Char) (c : Char) (rest : List Char) : Stretch :=
  match marked with
  | [] => ⟨.fault (.unrecognized c), [c], rest⟩
  | first :: _ =>
    if isWordStart first then
      let taken := marked.takeWhile isWordChar
      ⟨.token (wordKind taken), taken, marked.dropWhile isWordChar⟩
    else if first.isDigit then
      ⟨.token .number, (numeral marked).1, (numeral marked).2⟩
    else ⟨.fault (.unrecognized c), [c], rest⟩

/-- The stretch that the character `c` with `rest` after it begins. A word or numeral is read
from the mark, which a scan sets at `c` itself. -/
def munch (marked : List Char) (c : Char) (rest : List Char) : Stretch :=
  match symbol? c with
  | some s => ⟨.token (.symbol s), [c], rest⟩
  | none =>
    match comparison? c with
    | some (alone, extended) =>
      match rest with
      | '=' :: more => ⟨.token (.symbol extended), [c, '='], more⟩
      | _ => ⟨.token (.symbol alone), [c], rest⟩
    | none =>
      if c = '/' then slash rest
      else if c = '"' then quoted rest
      else if isSpace c then ⟨.blank, [c], rest⟩
      else word marked c rest

theorem closeComment_append {text taken rest : List Char}
    (found : closeComment text = some (taken, rest)) : taken ++ rest = text := by
  induction text using closeComment.induct generalizing taken rest with
  | case1 => simp [closeComment] at found
  | case2 more =>
    simp only [closeComment, Option.some.injEq, Prod.mk.injEq] at found
    obtain ⟨rfl, rfl⟩ := found
    rfl
  | case3 c more other ih =>
    rw [closeComment] at found
    · obtain ⟨⟨inner, after⟩, later, same⟩ := Option.map_eq_some_iff.1 found
      simp only [Prod.mk.injEq] at same
      obtain ⟨rfl, rfl⟩ := same
      simp [ih later]
    · exact other

theorem numeral_append (text : List Char) : (numeral text).1 ++ (numeral text).2 = text := by
  have split := List.takeWhile_append_dropWhile (p := Char.isDigit) (l := text)
  unfold numeral
  split
  case h_1 rest point =>
    dsimp only
    split
    · rw [← point]; exact split
    · simp only [List.append_assoc, List.cons_append, List.takeWhile_append_dropWhile]
      rw [← point]; exact split
  case h_2 => exact split

/-- With the mark at the character itself, the stretch is a beginning of the text. -/
theorem munch_append (c : Char) (rest : List Char) :
    (munch (c :: rest) c rest).taken ++ (munch (c :: rest) c rest).rest = c :: rest := by
  unfold munch
  split
  · rfl
  · split
    · split <;> rfl
    · split
      · rename_i slashes
        subst slashes
        unfold slash
        split
        · simp
        · split
          · rename_i found
            simpa using closeComment_append found
          · simp
        · rfl
      · split
        · rename_i quotes
          subst quotes
          unfold quoted
          have parts := List.takeWhile_append_dropWhile (p := (· ≠ '"')) (l := rest)
          split
          · rename_i quote after found
            rw [found] at parts
            simpa using parts
          · rename_i found
            rw [found] at parts
            simpa using parts
        · split
          · rfl
          · unfold word
            simp only
            split
            · exact List.takeWhile_append_dropWhile
            · split
              · exact numeral_append _
              · rfl

theorem munch_taken_ne_nil (c : Char) (rest : List Char) :
    (munch (c :: rest) c rest).taken ≠ [] := by
  unfold munch
  split
  · simp
  · split
    · split <;> simp
    · split
      · unfold slash
        split
        · simp
        · split <;> simp
        · simp
      · split
        · unfold quoted
          split <;> simp
        · split
          · simp
          · unfold word
            simp only
            split
            · rename_i start
              simp [isWordChar, start]
            · split
              · rename_i digit
                unfold numeral
                split
                · dsimp only
                  split <;> simp [digit]
                · simp [digit]
              · simp

theorem munch_rest_length_lt (c : Char) (rest : List Char) :
    (munch (c :: rest) c rest).rest.length < (c :: rest).length := by
  have whole := congrArg List.length (munch_append c rest)
  have some := List.length_pos_iff.2 (munch_taken_ne_nil c rest)
  simp only [List.length_append] at whole
  omega

end Lexeme

end Lox
