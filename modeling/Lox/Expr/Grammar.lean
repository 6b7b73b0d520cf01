import Lox.Expr.Basic
import Lox.Token.Basic
import Lox.Diagnostic

/-! Reading one expression from tokens. From loosest to tightest:

    expression → equality
    equality   → comparison (("!=" | "==") comparison)*
    comparison → term ((">" | ">=" | "<" | "<=") term)*
    term       → factor (("-" | "+") factor)*
    factor     → unary (("/" | "*") unary)*
    unary      → ("!" | "-") unary | primary
    primary    → NUMBER | STRING | "true" | "false" | "nil" | "(" expression ")"

Tokens after the expression are left unread. -/

namespace Lox

/-- The levels of binary operators, from loosest to tightest. -/
inductive Level where
  | equality
  | comparison
  | term
  | factor
  deriving DecidableEq, Repr

/-- The rules of the grammar. -/
inductive Rule where
  | expression
  | binary (level : Level)
  | unary
  | primary
  deriving DecidableEq, Repr

namespace Level

/-- The rule of a level's operands. -/
def operand : Level → Rule
  | .equality => .binary .comparison
  | .comparison => .binary .term
  | .term => .binary .factor
  | .factor => .unary

end Level

namespace Rule

/-- How many rules a rule may pass through before it reads a token. -/
def rank : Rule → Nat
  | .expression => 6
  | .binary .equality => 5
  | .binary .comparison => 4
  | .binary .term => 3
  | .binary .factor => 2
  | .unary => 1
  | .primary => 0

theorem rank_operand_lt (level : Level) : level.operand.rank < (Rule.binary level).rank := by
  cases level <;> decide

theorem rank_lt (rule : Rule) : rule.rank < 7 := by
  match rule with
  | .expression | .unary | .primary => decide
  | .binary level => cases level <;> decide

end Rule

namespace BinaryOp

def level : BinaryOp → Level
  | .equal | .notEqual => .equality
  | .less | .lessOrEqual | .greater | .greaterOrEqual => .comparison
  | .plus | .minus => .term
  | .multiply | .divide => .factor

end BinaryOp

namespace Kind

/-- The binary operator a token stands for between two operands. -/
def binaryOp? : Kind → Option BinaryOp
  | .symbol .equalEqual => some .equal
  | .symbol .bangEqual => some .notEqual
  | .symbol .less => some .less
  | .symbol .lessEqual => some .lessOrEqual
  | .symbol .greater => some .greater
  | .symbol .greaterEqual => some .greaterOrEqual
  | .symbol .plus => some .plus
  | .symbol .minus => some .minus
  | .symbol .star => some .multiply
  | .symbol .slash => some .divide
  | _ => none

/-- The unary operator a token stands for before an operand. -/
def unaryOp? : Kind → Option UnaryOp
  | .symbol .minus => some .negate
  | .symbol .bang => some .not
  | _ => none

end Kind

namespace Token

/-- The literal a token is as an operand. -/
def operand? (token : Token) : Option Value :=
  match token.kind with
  | .number | .string => some token.literal
  | .keyword .true => some (.boolean true)
  | .keyword .false => some (.boolean false)
  | .keyword .nil => some .nil
  | _ => none

/-- Where a problem at the token stands. -/
def location (token : Token) : String :=
  if token.kind = .eof then " at end" else " at '" ++ token.lexeme ++ "'"

/-- The problem of a token that does not fit. -/
def problem (token : Token) (message : String) : Problem :=
  ⟨.parse, message, some token.line, token.location⟩

end Token

/-- Why no expression could be read: a token does not fit, which is a problem to report, or there
is no token to look at. -/
inductive ParseFault where
  | unexpected (found : Token) (message : String)
  | outOfTokens
  deriving DecidableEq, Repr

namespace ParseFault

def expectedOperand (found : Token) : ParseFault :=
  .unexpected found "Expected a literal or '('."

def expectedClosing (found : Token) : ParseFault := .unexpected found "Expected ')'."

end ParseFault

/-- A tree with the tokens after it, fewer than `bound`; or a fault with the tokens from where
reading stopped. -/
inductive Parsed (bound : Nat) where
  | tree (expr : Expr) (rest : List Token) (fewer : rest.length < bound)
  | fault (cause : ParseFault) (rest : List Token)
  deriving DecidableEq, Repr

namespace Parsed

def widen {m n : Nat} (within : m ≤ n) : Parsed m → Parsed n
  | .tree expr rest fewer => .tree expr rest (Nat.lt_of_lt_of_le fewer within)
  | .fault cause rest => .fault cause rest

end Parsed

mutual

/-- Reads what a rule derives from the front of the tokens. -/
def parse (rule : Rule) (tokens : List Token) : Parsed tokens.length :=
  match rule with
  | .expression => parse (.binary .equality) tokens
  | .binary level =>
    have := Rule.rank_operand_lt level
    match parse level.operand tokens with
    | .fault cause rest => .fault cause rest
    | .tree left rest fewer => (parseMore level left rest).widen fewer
  | .unary =>
    match tokens with
    | [] => .fault .outOfTokens []
    | token :: rest =>
      match token.kind.unaryOp? with
      | none => parse .primary (token :: rest)
      | some op =>
        match parse .unary rest with
        | .fault cause rest => .fault cause rest
        | .tree operand rest fewer =>
          .tree (.unary op operand token.line) rest (Nat.lt_succ_of_lt fewer)
  | .primary =>
    match tokens with
    | [] => .fault .outOfTokens []
    | token :: rest =>
      match token.operand? with
      | some value => .tree (.literal value) rest (Nat.lt_succ_self _)
      | none =>
        if token.kind = .symbol .leftParen then
          match parse .expression rest with
          | .fault cause rest => .fault cause rest
          | .tree _ [] _ => .fault .outOfTokens []
          | .tree inner (closing :: after) fewer =>
            if closing.kind = .symbol .rightParen then
              .tree (.grouping inner) after
                (Nat.lt_succ_of_lt (Nat.lt_of_succ_lt fewer))
            else .fault (.expectedClosing closing) (closing :: after)
        else .fault (.expectedOperand token) (token :: rest)
termination_by 7 * tokens.length + rule.rank
decreasing_by all_goals simp only [Rule.rank, List.length_cons] at *; omega

/-- Reads operators of a level with their right operands, as long as there are any; `left` is
what stands before them. -/
def parseMore (level : Level) (left : Expr) (tokens : List Token) :
    Parsed (tokens.length + 1) :=
  match tokens with
  | [] => .fault .outOfTokens []
  | token :: rest =>
    match token.kind.binaryOp? with
    | none => .tree left (token :: rest) (Nat.lt_succ_self _)
    | some op =>
      if op.level = level then
        have := Rule.rank_lt level.operand
        match parse level.operand rest with
        | .fault cause rest => .fault cause rest
        | .tree right after fewer =>
          (parseMore level (.binary op left right token.line) after).widen
            (Nat.le_trans fewer (Nat.le_add_right _ 2))
      else .tree left (token :: rest) (Nat.lt_succ_self _)
termination_by 7 * tokens.length
decreasing_by all_goals simp only [List.length_cons] at *; omega

end

end Lox
