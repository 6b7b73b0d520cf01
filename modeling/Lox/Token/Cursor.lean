import Lox.Token.Scan

/-! Scanning by hand: a cursor over a source text with a mark behind it. The lexeme of a new
token runs from the mark to the cursor. -/

namespace Lox

structure Cursor where
  source : List Char
  start : Nat := 0
  current : Nat := 0
  line : Int := 1
  tokens : List Token := []
  deriving DecidableEq, Repr

namespace Cursor

def ofSource (source : String) : Cursor := { source := source.toList }

def isAtEnd (cursor : Cursor) : Bool := cursor.source.length ≤ cursor.current

/-- The text from the cursor on. -/
def ahead (cursor : Cursor) : List Char := cursor.source.drop cursor.current

/-- The next character, or U+0000 when there is none. -/
def peek (cursor : Cursor) : Char := cursor.source[cursor.current]?.getD '\x00'

/-- The character after the next one, or U+0000 when there is none. -/
def peekNext (cursor : Cursor) : Char := cursor.source[cursor.current + 1]?.getD '\x00'

/-- Takes the next character; there may be none. -/
def advance (cursor : Cursor) : Option Char × Cursor :=
  match cursor.source[cursor.current]? with
  | some c => (some c, { cursor with current := cursor.current + 1 })
  | none => (none, cursor)

/-- Moves over the expected character. Past the end of the text that is U+0000. -/
def accept (cursor : Cursor) (expected : Char) : Bool × Cursor :=
  if cursor.peek = expected then (true, { cursor with current := cursor.current + 1 })
  else (false, cursor)

/-- Sets the mark at the cursor. -/
def mark (cursor : Cursor) : Cursor := { cursor with start := cursor.current }

/-- The text between the mark and the cursor. -/
def lexeme (cursor : Cursor) : List Char := (cursor.source.take cursor.current).drop cursor.start

def addToken (cursor : Cursor) (kind : Kind) (literal : Value := .nil) : Cursor :=
  let token := ⟨kind, String.ofList cursor.lexeme, cursor.line, literal⟩
  { cursor with tokens := cursor.tokens ++ [token] }

/-- How one step of a scan by hand ends. -/
inductive Step where
  | done
  | fault (problem : Problem)
  | outOfText
  deriving DecidableEq, Repr

/-- Scans one stretch from the cursor, without setting the mark. -/
def scanToken (cursor : Cursor) : Step × Cursor :=
  match cursor.ahead with
  | [] => (.outOfText, cursor)
  | c :: rest =>
    let stretch := Lexeme.munch (cursor.source.drop cursor.start) c rest
    let moved := { cursor with
      current := cursor.source.length - stretch.rest.length
      line := cursor.line + newlines stretch.taken }
    match stretch.piece with
    | .token kind => (.done, moved.addToken kind (Token.literalOf kind moved.lexeme))
    | .blank => (.done, moved)
    | .fault cause => (.fault (cause.problem cursor.line), moved)

theorem scanToken_source (cursor : Cursor) : cursor.scanToken.2.source = cursor.source := by
  unfold scanToken
  split
  · rfl
  · dsimp only
    split <;> rfl

theorem current_lt_scanToken_mark (cursor : Cursor)
    (inside : cursor.current < cursor.source.length) :
    cursor.current < cursor.mark.scanToken.2.current := by
  unfold scanToken
  split
  · rename_i nothing
    simp only [ahead, mark, List.drop_eq_nil_iff] at nothing
    omega
  · rename_i c rest text
    have whole : cursor.source.drop cursor.current = c :: rest := text
    have shorter := Lexeme.munch_rest_length_lt c rest
    have size := congrArg List.length whole
    simp only [List.length_drop] at size
    have moves : cursor.current <
        cursor.source.length - (Lexeme.munch (c :: rest) c rest).rest.length := by omega
    simp only [mark, whole]
    split <;> exact moves

/-- A marked step from inside the text leaves less of it ahead. -/
theorem scanToken_mark_closer {cursor moved : Cursor} {step : Step}
    (inside : cursor.current < cursor.source.length)
    (moves : cursor.mark.scanToken = (step, moved)) :
    moved.source.length - moved.current < cursor.source.length - cursor.current := by
  have source := scanToken_source cursor.mark
  have further := current_lt_scanToken_mark cursor inside
  rw [moves] at source further
  rw [source]
  simp only [mark] at further ⊢
  omega

/-- Scans on to the end of the text, marking each stretch, and adds a last token. -/
def scanTokens (cursor : Cursor) : List Problem × Cursor :=
  if inside : cursor.current < cursor.source.length then
    match moves : cursor.mark.scanToken with
    | (step, moved) =>
      have := scanToken_mark_closer inside moves
      let (problems, final) := scanTokens moved
      match step with
      | .fault problem => (problem :: problems, final)
      | _ => (problems, final)
  else ([], { cursor with tokens := cursor.tokens ++ [.eof cursor.line] })
termination_by cursor.source.length - cursor.current

end Cursor

end Lox
