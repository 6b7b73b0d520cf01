import Lox.Expr.Grammar

/-! Parsing by hand: a position in a list of tokens, moved by the rules of the grammar or
token by token. The last token of a well-formed list is the end of input, which no step
passes. -/

namespace Lox

structure Parser where
  tokens : List Token
  position : Nat := 0
  deriving DecidableEq, Repr

namespace Parser

/-- The tokens from the position on. -/
def ahead (parser : Parser) : List Token := parser.tokens.drop parser.position

def current (parser : Parser) : Except ParseFault Token :=
  match parser.tokens[parser.position]? with
  | some token => .ok token
  | none => .error .outOfTokens

/-- The token before the position. Before the first one stands the last, as in a ring. -/
def previous (parser : Parser) : Except ParseFault Token :=
  let token? := if parser.position = 0 then parser.tokens.getLast?
    else parser.tokens[parser.position - 1]?
  match token? with
  | some token => .ok token
  | none => .error .outOfTokens

def isAtEnd (parser : Parser) : Except ParseFault Bool :=
  parser.current.map fun token => token.kind = .eof

/-- Takes the current token; the end of input stays current. -/
def advance (parser : Parser) : Except ParseFault Token × Parser :=
  match parser.current with
  | .error fault => (.error fault, parser)
  | .ok token =>
    (.ok token,
      if token.kind = .eof then parser else { parser with position := parser.position + 1 })

/-- Takes the current token if it is of one of the kinds. -/
def accept (parser : Parser) (kinds : List Kind) : Except ParseFault (Option Token) × Parser :=
  match parser.current with
  | .error fault => (.error fault, parser)
  | .ok token =>
    if token.kind ∈ kinds then
      let (taken, moved) := parser.advance
      (taken.map some, moved)
    else (.ok none, parser)

/-- Takes the current token, which must be of the kind. -/
def expect (parser : Parser) (kind : Kind) (message : String) : Except ParseFault Token × Parser :=
  match parser.current with
  | .error fault => (.error fault, parser)
  | .ok token =>
    if token.kind = kind then parser.advance else (.error (.unexpected token message), parser)

/-- How many tokens come before the next boundary of a statement: the end of input, a token
after a semicolon, or a keyword that starts a statement. Without one, all tokens do. -/
def beforeBoundary (previous : Token) : List Token → Nat × Except ParseFault Unit
  | [] => (0, .error .outOfTokens)
  | token :: rest =>
    if token.kind = .eof ∨ previous.kind = .symbol .semicolon ∨ token.kind.startsStatement then
      (0, .ok ())
    else
      let (count, found) := beforeBoundary token rest
      (count + 1, found)

/-- Passes over the current token and on to the next boundary of a statement. -/
def synchronize (parser : Parser) : Except ParseFault Unit × Parser :=
  match parser.ahead with
  | [] => (.error .outOfTokens, parser)
  | token :: rest =>
    if token.kind = .eof then (.ok (), parser)
    else
      let (count, found) := beforeBoundary token rest
      (found, { parser with position := parser.position + 1 + count })

/-- Reads what a rule derives. After a fault the position is where reading stopped. -/
def run (parser : Parser) (rule : Rule) : Except ParseFault Expr × Parser :=
  match parse rule parser.ahead with
  | .tree expr rest _ => (.ok expr, { parser with position := parser.tokens.length - rest.length })
  | .fault cause rest =>
    (.error cause, { parser with position := parser.tokens.length - rest.length })

/-- Reads an expression. A token that does not fit is reported, and gives no tree. -/
def attempt (parser : Parser) (reporter : Reporter) :
    Except ParseFault (Option Expr) × Parser × Reporter :=
  match parser.run .expression with
  | (.ok expr, moved) => (.ok (some expr), moved, reporter)
  | (.error .outOfTokens, moved) => (.error .outOfTokens, moved, reporter)
  | (.error (.unexpected found message), moved) =>
    (.ok none, moved, reporter.record (found.problem message))

end Parser

end Lox
