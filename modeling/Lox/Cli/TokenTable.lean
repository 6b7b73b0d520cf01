import Lox.Token.Basic
import Lox.Cli.Console

/-! The table of tokens: line, kind, lexeme and literal. -/

namespace Lox.Cli.TokenTable

def columns : List Column :=
  [{ heading := "Line", flushRight := true }, { heading := "Kind" }, { heading := "Lexeme" },
    { heading := "Literal" }]

def row (token : Token) : List String :=
  [toString token.line, token.kind.name, token.lexeme,
    if token.literal = .nil then "" else token.literal.fullText]

def ofTokens (tokens : List Token) : Table := ⟨"Tokens", columns, tokens.map row⟩

end Lox.Cli.TokenTable
