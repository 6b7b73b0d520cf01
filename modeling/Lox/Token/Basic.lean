import Lox.Value

/-! Tokens of Lox source text. Keywords of statements and classes are tokens too, though
expressions use only `true`, `false` and `nil`. -/

namespace Lox

inductive Symbol where
  | leftParen
  | rightParen
  | leftBrace
  | rightBrace
  | comma
  | dot
  | minus
  | plus
  | semicolon
  | slash
  | star
  | bang
  | bangEqual
  | equal
  | equalEqual
  | greater
  | greaterEqual
  | less
  | lessEqual
  deriving DecidableEq, Repr

inductive Keyword where
  | and
  | class_
  | else_
  | false
  | fun_
  | for_
  | if_
  | nil
  | or
  | print
  | return_
  | super
  | this
  | true
  | var
  | while_
  deriving DecidableEq, Repr

/-- The lexical category of a token. -/
inductive Kind where
  | symbol (s : Symbol)
  | identifier
  | string
  | number
  | keyword (k : Keyword)
  | eof
  deriving DecidableEq, Repr

namespace Symbol

def all : List Symbol :=
  [leftParen, rightParen, leftBrace, rightBrace, comma, dot, minus, plus, semicolon, slash, star,
    bang, bangEqual, equal, equalEqual, greater, greaterEqual, less, lessEqual]

def name : Symbol → String
  | leftParen => "LEFT_PAREN"
  | rightParen => "RIGHT_PAREN"
  | leftBrace => "LEFT_BRACE"
  | rightBrace => "RIGHT_BRACE"
  | comma => "COMMA"
  | dot => "DOT"
  | minus => "MINUS"
  | plus => "PLUS"
  | semicolon => "SEMICOLON"
  | slash => "SLASH"
  | star => "STAR"
  | bang => "BANG"
  | bangEqual => "BANG_EQUAL"
  | equal => "EQUAL"
  | equalEqual => "EQUAL_EQUAL"
  | greater => "GREATER"
  | greaterEqual => "GREATER_EQUAL"
  | less => "LESS"
  | lessEqual => "LESS_EQUAL"

end Symbol

namespace Keyword

def all : List Keyword :=
  [and, class_, else_, false, fun_, for_, if_, nil, or, print, return_, super, this, true, var,
    while_]

/-- How a keyword is spelled in source text. -/
def text : Keyword → String
  | and => "and"
  | class_ => "class"
  | else_ => "else"
  | false => "false"
  | fun_ => "fun"
  | for_ => "for"
  | if_ => "if"
  | nil => "nil"
  | or => "or"
  | print => "print"
  | return_ => "return"
  | super => "super"
  | this => "this"
  | true => "true"
  | var => "var"
  | while_ => "while"

def name : Keyword → String
  | and => "AND"
  | class_ => "CLASS"
  | else_ => "ELSE"
  | false => "FALSE"
  | fun_ => "FUN"
  | for_ => "FOR"
  | if_ => "IF"
  | nil => "NIL"
  | or => "OR"
  | print => "PRINT"
  | return_ => "RETURN"
  | super => "SUPER"
  | this => "THIS"
  | true => "TRUE"
  | var => "VAR"
  | while_ => "WHILE"

def ofText? (text : String) : Option Keyword := all.find? (·.text == text)

/-- Whether a statement begins with the keyword. -/
def startsStatement : Keyword → Bool
  | class_ | fun_ | var | for_ | if_ | while_ | print | return_ => Bool.true
  | _ => Bool.false

end Keyword

namespace Kind

def all : List Kind :=
  Symbol.all.map .symbol ++ [.identifier, .string, .number] ++ Keyword.all.map .keyword ++ [.eof]

def name : Kind → String
  | .symbol s => s.name
  | .identifier => "IDENTIFIER"
  | .string => "STRING"
  | .number => "NUMBER"
  | .keyword k => k.name
  | .eof => "EOF"

def ofName? (name : String) : Option Kind := all.find? (·.name == name)

def startsStatement : Kind → Bool
  | .keyword k => k.startsStatement
  | _ => false

end Kind

/-- A token and where it ends. `literal` is the value that an identifier, string or number
stands for, and nil for every other token. -/
structure Token where
  kind : Kind
  lexeme : String
  line : Int
  literal : Value := .nil
  deriving DecidableEq, Repr

namespace Token

def eof (line : Int) : Token := ⟨.eof, "", line, .nil⟩

/-- The value of a lexeme: a name, the text between the quotes, or the nearest single. -/
def literalOf (kind : Kind) (lexeme : List Char) : Value :=
  match kind with
  | .identifier => .string (String.ofList lexeme)
  | .string => .string (String.ofList (lexeme.drop 1).dropLast)
  | .number => .number (Number.ofDecimal false (Decimal.ofNumeral lexeme)).toSingle
  | _ => .nil

def ofLexeme (kind : Kind) (lexeme : List Char) (line : Int) : Token :=
  ⟨kind, String.ofList lexeme, line, literalOf kind lexeme⟩

/-- Kind and lexeme, and the literal in full if there is one. -/
def text (token : Token) : String :=
  let shown := token.kind.name ++ " " ++ token.lexeme
  if token.literal = .nil then shown else shown ++ " " ++ token.literal.fullText

end Token

end Lox
