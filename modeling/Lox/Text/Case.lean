/-! Capital and small letters, as far as they decide whether a text is an ASCII word: only
characters whose other case is written in ASCII letters are changed. -/

namespace Lox.Text

/-- The capitals of a character, if they are ASCII letters. -/
def capitals (c : Char) : List Char :=
  match c with
  | 'ß' => ['S', 'S']
  | 'ı' => ['I']
  | 'ſ' => ['S']
  | 'ﬀ' => ['F', 'F']
  | 'ﬁ' => ['F', 'I']
  | 'ﬂ' => ['F', 'L']
  | 'ﬃ' => ['F', 'F', 'I']
  | 'ﬄ' => ['F', 'F', 'L']
  | 'ﬅ' => ['S', 'T']
  | 'ﬆ' => ['S', 'T']
  | _ => [c.toUpper]

/-- The small letter of a character, if it is an ASCII letter; the Kelvin sign has one. -/
def small (c : Char) : Char := if c = 'K' then 'k' else c.toLower

def upper (text : List Char) : List Char := text.flatMap capitals

def lower (text : List Char) : List Char := text.map small

end Lox.Text
