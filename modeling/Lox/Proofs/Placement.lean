import Lox.Expr.Eval
import Lox.Proofs.Scanning
import Lox.Proofs.Stratified

/-! A text in another place. What stands before it moves its lines, and a line end after it leaves
its stretches as they were. Tokens and trees keep all but their lines, and evaluation does not look
at lines except to tell where it fails. -/

namespace Lox.Proofs

def moveToken (move : Int → Int) (token : Token) : Token := { token with line := move token.line }

def moveLines (move : Int → Int) : Expr → Expr
  | .literal value => .literal value
  | .unary op operand line => .unary op (moveLines move operand) (move line)
  | .binary op left right line => .binary op (moveLines move left) (moveLines move right) (move line)
  | .grouping inner => .grouping (moveLines move inner)

def moveFault (move : Int → Int) : EvalFault → EvalFault
  | .unary op operand line => .unary op operand (move line)
  | .binary op left right line => .binary op left right (move line)

def moveScan (move : Int → Int) (scan : Scan) : Scan where
  tokens := scan.tokens.map (moveToken move)
  problems := scan.problems.map fun problem => { problem with line := problem.line.map move }
  lastLine := move scan.lastLine

theorem eraseLines_eq_moveLines (expr : Expr) : eraseLines expr = moveLines (fun _ => 0) expr := by
  induction expr with
  | literal value => rfl
  | unary op operand line ih => rw [eraseLines, moveLines, ih]
  | binary op left right line ihLeft ihRight => rw [eraseLines, moveLines, ihLeft, ihRight]
  | grouping inner ih => rw [eraseLines, moveLines, ih]

theorem eval_moveLines (move : Int → Int) (expr : Expr) :
    (moveLines move expr).eval = expr.eval.mapError (moveFault move) := by
  induction expr with
  | literal value => rfl
  | unary op operand line ih =>
    rw [moveLines, Expr.eval, Expr.eval, ih]
    cases operand.eval with
    | error fault => rfl
    | ok value =>
      simp only [Except.mapError]
      cases op.result? value <;> rfl
  | binary op left right line ihLeft ihRight =>
    rw [moveLines, Expr.eval, Expr.eval, ihLeft, ihRight]
    cases left.eval with
    | error fault => rfl
    | ok first =>
      cases right.eval with
      | error fault => rfl
      | ok second =>
        simp only [Except.mapError]
        cases op.result? first second <;> rfl
  | grouping inner ih => exact ih

theorem eval_ok_of_eraseLines {expr found : Expr} {value : Value} (same : eraseLines found = eraseLines expr)
    (gives : expr.eval = .ok value) : found.eval = .ok value := by
  have moved : found.eval.mapError (moveFault fun _ => 0) = .ok value := by
    rw [← eval_moveLines, ← eraseLines_eq_moveLines, same, eraseLines_eq_moveLines, eval_moveLines, gives]
    rfl
  cases evaluated : found.eval with
  | error fault =>
    rw [evaluated] at moved
    cases moved
  | ok other =>
    rw [evaluated] at moved
    exact moved

theorem Derives.move {rule : Rule} {tokens : List Token} {expr : Expr} (move : Int → Int)
    (phrase : Derives rule tokens expr) :
    Derives rule (tokens.map (moveToken move)) (moveLines move expr) := by
  induction phrase with
  | pass tighter _ ih => exact .pass tighter ih
  | @operator level inner before after first second token op _ symbol tighter _ ihLeft ihRight =>
    rw [List.map_append, List.map_cons]
    exact @Derives.operator _ _ _ _ _ _ (moveToken move token) op ihLeft symbol tighter ihRight
  | @sign tokens expr token op symbol _ ih =>
    rw [List.map_cons]
    exact @Derives.sign _ _ (moveToken move token) op symbol ih
  | atom operand =>
    apply Derives.atom
    cases operand with
    | number kind => exact .number kind
    | string kind => exact .string kind
    | true kind => exact .true kind
    | false kind => exact .false kind
    | nil kind => exact .nil kind
  | @group opening closing tokens expr opens _ closes ih =>
    rw [List.map_append, List.map_cons]
    exact .group opens ih closes

theorem locate_add (line shift : Int) (cut : List Segment) :
    Scan.locate (line + shift) cut = moveScan (· + shift) (Scan.locate line cut) := by
  induction cut generalizing line with
  | nil => rfl
  | cons segment later ih =>
    have place : line + shift + newlines segment.text = line + newlines segment.text + shift := by omega
    rw [Scan.locate, Scan.locate, place, ih]
    cases segment.piece <;> rfl

section
variable {text rest more taken : List Char} {line after : Int} {tokens : List Token} {cut : List Segment}

theorem Scans.move (scans : Scans text rest line tokens after) (shift : Int) :
    Scans text rest (line + shift) (tokens.map (moveToken (· + shift))) (after + shift) := by
  obtain ⟨cut, cuts, located⟩ := scans
  refine ⟨cut, cuts, fun later => ?_⟩
  rw [locate_add, locate_add, located]
  simp [moveScan]

/-- A fault that the end of the text brings about: what follows could have closed the stretch. -/
def Unclosed (piece : Piece) : Prop :=
  piece = .fault .unterminatedString ∨ piece = .fault .unterminatedComment

/-- What is the longest before the end of the text is the longest before a line end. -/
theorem Longest.before_newline {language : List Char → Prop} (solid : ∀ text, language text → '\n' ∉ text)
    (longest : Longest language taken rest) (more : List Char) :
    Longest language taken (rest ++ '\n' :: more) := by
  refine ⟨longest.member, fun longer after split member => ?_⟩
  have unbroken : '\n' ∉ longer := fun inside => solid _ member (List.mem_append_right taken inside)
  rcases List.append_eq_append_iff.mp split with ⟨beyond, rfl, ends⟩ | ⟨before, rfl, -⟩
  · cases beyond with
    | nil =>
      rw [List.append_nil] at member ⊢
      exact longest.maximal rest [] (List.append_nil rest).symm member
    | cons c beyond =>
      obtain rfl : '\n' = c := (List.cons.inj ends).1
      exact absurd (by simp) unbroken
  · exact longest.maximal longer before rfl member

theorem head?_before_newline {c : Char} (apart : rest.head? ≠ some c) (other : '\n' ≠ c) (more : List Char) :
    (rest ++ '\n' :: more).head? ≠ some c := by
  cases rest with
  | nil => exact fun same => other (Option.some.inj same)
  | cons _ _ => exact apart

/-- Only a string or a comment that is not closed reaches over a line end after the text. -/
theorem Lexical.before_newline {piece : Piece} (lexical : Lexical piece taken rest) (closed : ¬ Unclosed piece)
    (more : List Char) : Lexical piece taken (rest ++ '\n' :: more) := by
  have word (text : List Char) (word : Word text) : '\n' ∉ text := by
    obtain ⟨first, more, rfl, start, all⟩ := word
    intro inside
    rcases List.mem_cons.mp inside with rfl | later
    · exact absurd start (by decide)
    · exact absurd (all _ later) (by decide)
  have numeral (text : List Char) (numeral : Numeral text) : '\n' ∉ text :=
    fun inside => absurd (numeral.chars _ inside) (by decide)
  cases lexical with
  | keyword k longest spelled => exact .keyword k (longest.before_newline word more) spelled
  | identifier longest plain => exact .identifier (longest.before_newline word more) plain
  | number longest => exact .number (longest.before_newline numeral more)
  | string unquoted => exact .string unquoted
  | punctuation spelled => exact .punctuation spelled
  | alone spelled apart => exact .alone spelled (head?_before_newline apart (by decide) more)
  | extended spelled => exact .extended spelled
  | slash line block =>
    exact .slash (head?_before_newline line (by decide) more) (head?_before_newline block (by decide) more)
  | lineComment within ends =>
    refine .lineComment within (.inr ?_)
    rcases ends with rfl | head
    · rfl
    · rw [List.head?_append, head]
      rfl
  | blockComment first => exact .blockComment first
  | space space => exact .space space
  | openString _ => exact absurd (.inl rfl) closed
  | openComment _ => exact absurd (.inr rfl) closed
  | stray stray => exact .stray stray

theorem Cuts.before_newline (cuts : Cuts text cut rest) (closed : ∀ segment ∈ cut, ¬ Unclosed segment.piece)
    (more : List Char) : Cuts (text ++ '\n' :: more) cut (rest ++ '\n' :: more) := by
  induction cuts with
  | done => exact .done
  | @step piece taken middle cut rest lexical _ ih =>
    rw [List.append_assoc]
    refine .step (lexical.before_newline (closed _ List.mem_cons_self) more) (ih ?_)
    exact fun segment member => closed segment (List.mem_cons_of_mem _ member)

theorem problem_of_fault {segment : Segment} {cause : ScanFault} (member : segment ∈ cut)
    (faulty : segment.piece = .fault cause) (line : Int) :
    ∃ place, cause.problem place ∈ (Scan.locate line cut).problems := by
  induction cut generalizing line with
  | nil => cases member
  | cons first later ih =>
    rw [Scan.locate]
    rcases List.mem_cons.mp member with rfl | further
    · rw [faulty]
      exact ⟨line, List.mem_cons_self⟩
    · obtain ⟨place, found⟩ := ih further (line + newlines first.text)
      refine ⟨place, ?_⟩
      cases first.piece with
      | token _ | blank => exact found
      | fault _ => exact List.mem_cons_of_mem _ found

theorem sound_of_problems (clean : (Scan.locate line cut).problems = []) :
    ∀ segment ∈ cut, ∀ cause, segment.piece ≠ .fault cause := by
  intro segment member cause faulty
  obtain ⟨place, found⟩ := problem_of_fault member faulty line
  rw [clean] at found
  cases found

theorem Scans.before_newline (scans : Scans text [] line tokens after) (more : List Char) :
    Scans (text ++ '\n' :: more) ('\n' :: more) line tokens after := by
  obtain ⟨cut, cuts, located⟩ := scans
  have clean : (Scan.locate line cut).problems = [] := by
    rw [← List.append_nil cut, located]
    rfl
  have closed : ∀ segment ∈ cut, ¬ Unclosed segment.piece := by
    rintro segment member (same | same)
    · exact sound_of_problems clean segment member _ same
    · exact sound_of_problems clean segment member _ same
  exact ⟨cut, cuts.before_newline closed more, located⟩

end

end Lox.Proofs
