import Mathlib.Tactic.Tauto
import Lox.Token.Scan

/-! The lexical grammar: which stretch of a source begins at a place, given the text that is
left there. The rules speak of languages and of what may not follow; that the longest text of
a language is taken is said of all its longer texts at once. -/

namespace Lox.Proofs

def WordStart (c : Char) : Prop := ('a' ≤ c ∧ c ≤ 'z') ∨ ('A' ≤ c ∧ c ≤ 'Z') ∨ c = '_'

def Digit (c : Char) : Prop := '0' ≤ c ∧ c ≤ '9'

instance : DecidablePred WordStart := fun _ => inferInstanceAs (Decidable (_ ∨ _ ∨ _))

instance : DecidablePred Digit := fun _ => inferInstanceAs (Decidable (_ ∧ _))

/-- `[A-Za-z_][A-Za-z0-9_]*` -/
def Word (text : List Char) : Prop :=
  ∃ first more, text = first :: more ∧ WordStart first ∧ ∀ c ∈ more, WordStart c ∨ Digit c

def Digits (text : List Char) : Prop := text ≠ [] ∧ ∀ c ∈ text, Digit c

/-- `[0-9]+([.][0-9]+)?` -/
def Numeral (text : List Char) : Prop :=
  Digits text ∨ ∃ whole places, text = whole ++ '.' :: places ∧ Digits whole ∧ Digits places

/-- No longer beginning of the text is in the language. -/
structure Longest (language : List Char → Prop) (taken rest : List Char) : Prop where
  member : language taken
  maximal : ∀ more after, rest = more ++ after → language (taken ++ more) → more = []

inductive Punctuation : Char → Symbol → Prop where
  | leftParen : Punctuation '(' .leftParen
  | rightParen : Punctuation ')' .rightParen
  | leftBrace : Punctuation '{' .leftBrace
  | rightBrace : Punctuation '}' .rightBrace
  | comma : Punctuation ',' .comma
  | dot : Punctuation '.' .dot
  | minus : Punctuation '-' .minus
  | plus : Punctuation '+' .plus
  | semicolon : Punctuation ';' .semicolon
  | star : Punctuation '*' .star

/-- The symbols that stand alone or before an `=`, and what they are then. -/
inductive Comparison : Char → Symbol → Symbol → Prop where
  | bang : Comparison '!' .bang .bangEqual
  | equal : Comparison '=' .equal .equalEqual
  | less : Comparison '<' .less .lessEqual
  | greater : Comparison '>' .greater .greaterEqual

def Space (c : Char) : Prop := c = ' ' ∨ c = '\t' ∨ c = '\r' ∨ c = '\n'

/-- A character that no rule begins with. -/
structure Stray (c : Char) : Prop where
  word : ¬ WordStart c
  digit : ¬ Digit c
  punctuation : ∀ symbol, ¬ Punctuation c symbol
  comparison : ∀ alone extended, ¬ Comparison c alone extended
  slash : c ≠ '/'
  quote : c ≠ '"'
  space : ¬ Space c

/-- `Lexical piece taken rest`: the text `taken` is a stretch of this kind where the text
`rest` comes after it. -/
inductive Lexical : Piece → List Char → List Char → Prop where
  | keyword {taken rest} (k : Keyword) (longest : Longest Word taken rest)
      (spelled : taken = k.text.toList) : Lexical (.token (.keyword k)) taken rest
  | identifier {taken rest} (longest : Longest Word taken rest)
      (plain : ∀ k : Keyword, taken ≠ k.text.toList) : Lexical (.token .identifier) taken rest
  | number {taken rest} (longest : Longest Numeral taken rest) : Lexical (.token .number) taken rest
  | string {inner rest} (unquoted : '"' ∉ inner) : Lexical (.token .string) ('"' :: inner ++ ['"']) rest
  | openString {inner} (unquoted : '"' ∉ inner) : Lexical (.fault .unterminatedString) ('"' :: inner) []
  | punctuation {c symbol rest} (spelled : Punctuation c symbol) : Lexical (.token (.symbol symbol)) [c] rest
  | alone {c alone extended rest} (spelled : Comparison c alone extended) (apart : rest.head? ≠ some '=') :
      Lexical (.token (.symbol alone)) [c] rest
  | extended {c alone extended rest} (spelled : Comparison c alone extended) :
      Lexical (.token (.symbol extended)) [c, '='] rest
  | slash {rest} (line : rest.head? ≠ some '/') (block : rest.head? ≠ some '*') :
      Lexical (.token (.symbol .slash)) ['/'] rest
  | lineComment {body rest} (within : '\n' ∉ body) (ends : rest = [] ∨ rest.head? = some '\n') :
      Lexical .blank ('/' :: '/' :: body) rest
  | blockComment {body rest}
      (first : ∀ before after, body ++ ['*', '/'] = before ++ '*' :: '/' :: after → after = []) :
      Lexical .blank ('/' :: '*' :: (body ++ ['*', '/'])) rest
  | openComment {body} (unclosed : ∀ before after, body ≠ before ++ '*' :: '/' :: after) :
      Lexical (.fault .unterminatedComment) ('/' :: '*' :: body) []
  | space {c rest} (space : Space c) : Lexical .blank [c] rest
  | stray {c rest} (stray : Stray c) : Lexical (.fault (.unrecognized c)) [c] rest

theorem isWordStart_iff {c : Char} : Lexeme.isWordStart c = true ↔ WordStart c := by
  have upper : c.isUpper = true ↔ 'A' ≤ c ∧ c ≤ 'Z' := decide_eq_true_iff
  have lower : c.isLower = true ↔ 'a' ≤ c ∧ c ≤ 'z' := by
    change (decide ('a'.val ≤ c.val) && decide (c.val ≤ 'z'.val)) = true ↔ _
    rw [Bool.and_eq_true, decide_eq_true_eq, decide_eq_true_eq]
    rfl
  have alpha : c.isAlpha = true ↔ c.isUpper = true ∨ c.isLower = true := by
    change (c.isUpper || c.isLower) = true ↔ _
    rw [Bool.or_eq_true]
  rw [Lexeme.isWordStart, Bool.or_eq_true, alpha, upper, lower, beq_iff_eq, WordStart]
  tauto

theorem isDigit_iff {c : Char} : c.isDigit = true ↔ Digit c := by
  simp only [Char.isDigit, Digit, Char.le_def, Bool.and_eq_true, decide_eq_true_eq, ge_iff_le]

theorem isWordChar_iff {c : Char} : Lexeme.isWordChar c = true ↔ WordStart c ∨ Digit c := by
  rw [Lexeme.isWordChar, Bool.or_eq_true, isWordStart_iff, isDigit_iff]

theorem isSpace_iff {c : Char} : Lexeme.isSpace c = true ↔ Space c := by
  simp only [Lexeme.isSpace, Space, Bool.or_eq_true, beq_iff_eq, or_assoc]

theorem symbol?_eq_some_iff {c : Char} {symbol : Symbol} :
    Lexeme.symbol? c = some symbol ↔ Punctuation c symbol := by
  constructor
  · intro found
    unfold Lexeme.symbol? at found
    split at found <;> cases found <;> constructor
  · intro spelled
    cases spelled <;> rfl

theorem comparison?_eq_some_iff {c : Char} {alone extended : Symbol} :
    Lexeme.comparison? c = some (alone, extended) ↔ Comparison c alone extended := by
  constructor
  · intro found
    unfold Lexeme.comparison? at found
    split at found <;> cases found <;> constructor
  · intro spelled
    cases spelled <;> rfl

theorem Longest.unique {language : List Char → Prop} {taken rest taken' rest' : List Char}
    (longest : Longest language taken rest) (again : Longest language taken' rest')
    (same : taken ++ rest = taken' ++ rest') : taken = taken' ∧ rest = rest' := by
  rcases List.append_eq_append_iff.mp same with ⟨more, rfl, split⟩ | ⟨more, rfl, split⟩
  · obtain rfl := longest.maximal more rest' split again.member
    exact ⟨by simp, by simpa using split⟩
  · obtain rfl := again.maximal more rest split longest.member
    exact ⟨by simp, by simpa using split.symm⟩

end Lox.Proofs
