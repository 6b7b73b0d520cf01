import Lox.Proofs.Operators
import Lox.Proofs.Typing

/-! Sources put together. Two expressions in parentheses with an operator between them run as the two
do by themselves: first the left one, then the right one on the lines that it now stands on, then the
operator on their values, with the result that it means. -/

namespace Lox.Proofs

/-- The source is an expression from its first token to its last. -/
def Complete (source : String) : Prop := ∃ expr, ReadsAs source expr

def joined (op : BinaryOp) (first second : String) : String :=
  "(" ++ first ++ "\n)" ++ op.symbol ++ "(" ++ second ++ "\n)"

/-- `Joins op lines first second whole`: the outcome of the whole by those of its two parts, where the
left part has this many line ends. -/
inductive Joins (op : BinaryOp) (lines : Int) : Outcome → Outcome → Outcome → Prop where
  | left {diagnostic : Diagnostic} {other : Outcome} (runtime : diagnostic.stage = .runtime) :
      Joins op lines (failure diagnostic) other (failure diagnostic)
  | right {value : Value} {diagnostic : Diagnostic} (runtime : diagnostic.stage = .runtime) :
      Joins op lines { value } (failure diagnostic)
        (failure { diagnostic with line := diagnostic.line + (lines + 1) })
  | both {first second value : Value} (admitted : (first.type, second.type, value.type) ∈ binarySignatures op)
      (applies : Applies op first second value) :
      Joins op lines { value := first } { value := second } { value }
  | refused {first second : Value} (refused : ∀ type, (first.type, second.type, type) ∉ binarySignatures op) :
      Joins op lines { value := first } { value := second }
        (failure {
          stage := .runtime
          line := lines + 2
          location := ""
          message := "Cannot perform '" ++ op.name ++ "' on operands '" ++ first.text ++ "' and '" ++
            second.text ++ "'" })

section
variable {text rest : List Char} {cut : List Segment} {line after : Int} {tokens : List Token}
  {source first second : String} {expr left right : Expr}

theorem Lexical.kind_ne_eof {kind : Kind} {taken : List Char} (lexical : Lexical (.token kind) taken rest) :
    kind ≠ .eof := by
  rintro rfl
  cases lexical

theorem Cuts.exists_scans (cuts : Cuts text cut rest)
    (sound : ∀ segment ∈ cut, ∀ cause, segment.piece ≠ .fault cause) (line : Int) :
    ∃ tokens after, Scans text rest line tokens after ∧ NoEnd tokens ∧
      after + newlines rest = line + newlines text := by
  induction cuts generalizing line with
  | done => exact ⟨[], line, ⟨[], .done, fun _ => rfl⟩, by simp [NoEnd], rfl⟩
  | @step piece taken middle cut rest lexical _ ih =>
    obtain ⟨tokens, after, scans, others, place⟩ :=
      ih (fun segment member => sound segment (List.mem_cons_of_mem _ member)) (line + newlines taken)
    have place' : after + newlines rest = line + newlines (taken ++ middle) := by
      rw [newlines_append, Int.natCast_add, ← Int.add_assoc]
      exact place
    cases piece with
    | token kind =>
      exact ⟨_, after, (scans_token lexical line).append scans, .cons lexical.kind_ne_eof others, place'⟩
    | blank => exact ⟨_, after, (scans_blank lexical line).append scans, others, place'⟩
    | fault cause => exact absurd rfl (sound _ List.mem_cons_self cause)

theorem exists_scans (clean : (scan source).problems = []) :
    ∃ tokens, Scans source.toList [] 1 tokens (1 + newlines source.toList) ∧ NoEnd tokens := by
  obtain ⟨tokens, after, scans, others, place⟩ :=
    (cuts_segments source.toList).exists_scans (sound_of_problems clean) 1
  obtain rfl : after = 1 + newlines source.toList := by simpa [newlines] using place
  exact ⟨tokens, scans, others⟩

/-- A parser that stops at the end of input has read all the tokens before it. -/
theorem derives_of_attempt {body : List Token} {last : Token} {reporter : Reporter} {moved : Parser}
    (others : NoEnd body) (kind : last.kind = .eof)
    (gives : Parser.attempt { tokens := body ++ [last] } reporter = (.ok (some expr), moved, reporter))
    (ends : moved.isAtEnd = .ok true) : Derives .expression body expr := by
  obtain ⟨read, next, tail, result, split, reads, -⟩ :=
    exists_reads (.rule .expression) (body ++ [last]) ⟨last, by simp, kind⟩
  rw [split] at gives
  cases result with
  | error cause =>
    rw [Parser.attempt, reads.parser_run tail] at gives
    cases cause <;> cases gives
  | ok found =>
    rw [reads.attempt_tree tail reporter] at gives
    cases gives
    have stops : next.kind = .eof := by simpa [Parser.isAtEnd, Parser.current, Except.map] using ends
    suffices whole : body = read by
      rw [whole]
      exact reads.derives
    rcases List.append_eq_append_iff.mp split with ⟨beyond, rfl, final⟩ | ⟨missed, rfl, final⟩
    · cases beyond with
      | nil => rw [List.append_nil]
      | cons _ _ => simp at final
    · cases missed with
      | nil => rw [List.append_nil]
      | cons token missed =>
        obtain rfl : next = token := (List.cons.inj final).1
        exact absurd stops (others next (by simp))

theorem readsAs_iff : ReadsAs source expr ↔
    ∃ tokens, Scans source.toList [] 1 tokens (1 + newlines source.toList) ∧ Derives .expression tokens expr := by
  constructor
  · rintro ⟨clean, attempts⟩
    obtain ⟨tokens, scans, others⟩ := exists_scans clean
    obtain ⟨moved, gives, ends⟩ := attempts {}
    have scanned := scans.scan_eq
    rw [String.ofList_toList] at scanned
    rw [scanned] at gives
    exact ⟨tokens, scans, derives_of_attempt others rfl gives ends⟩
  · rintro ⟨tokens, scans, phrase⟩
    have scanned := scans.scan_eq
    rw [String.ofList_toList] at scanned
    exact phrase.readsAs scanned

theorem readsAs_of_run {moved : Parser} (clean : (scan source).problems = [])
    (gives : Parser.run { tokens := (scan source).tokens } .expression = (.ok expr, moved))
    (ends : moved.isAtEnd = .ok true) : ReadsAs source expr := by
  refine ⟨clean, fun reporter => ⟨moved, ?_, ends⟩⟩
  rw [Parser.attempt, gives]

/-- The tokens of a phrase in parentheses, which open and close on these lines. -/
def grouped (tokens : List Token) (opened closed : Int) : List Token :=
  .ofLexeme (.symbol .leftParen) ['('] opened :: tokens ++ [.ofLexeme (.symbol .rightParen) [')'] closed]

theorem Derives.grouped (phrase : Derives .expression tokens expr) (opened closed : Int) :
    Derives .primary (grouped tokens opened closed) (.grouping expr) :=
  .group rfl phrase rfl

-- The line end keeps a comment at the end of the text from reaching over the parenthesis.
theorem Scans.grouped (scans : Scans text [] line tokens after) (rest : List Char) :
    Scans ('(' :: (text ++ '\n' :: ')' :: rest)) rest line (grouped tokens line (after + 1)) (after + 1) := by
  have opens := @scans_token (text ++ '\n' :: ')' :: rest) ['('] _ (.punctuation .leftParen) line
  have blank := @scans_blank (')' :: rest) ['\n'] (.space (.inr (.inr (.inr rfl)))) after
  have closes := @scans_token rest [')'] _ (.punctuation .rightParen) (after + 1)
  have counts : newlines ['('] = 0 ∧ newlines ['\n'] = 1 ∧ newlines [')'] = 0 := by decide
  rw [counts.1, Int.natCast_zero, Int.add_zero] at opens
  rw [counts.2.1] at blank
  rw [counts.2.2, Int.natCast_zero, Int.add_zero] at closes
  exact opens.append ((scans.before_newline (')' :: rest)).append (blank.append closes))

theorem Derives.operation {op : BinaryOp} {token : Token} {before later : List Token}
    (symbol : Operator op.level token.kind op) (phrase : Derives .primary before left)
    (phrase' : Derives .primary later right) :
    Derives .expression (before ++ token :: later) (.binary op left right token.line) := by
  have operand := phrase.loosen (Nat.zero_le (Rule.binary op.level).rank)
  have operand' := phrase'.loosen (Nat.zero_le op.level.operand.rank)
  apply (operand.step (operator_iff.mp symbol).1 operand').loosen
  exact Nat.le_of_lt_succ (Rule.rank_lt _)

theorem ReadsAs.joined (op : BinaryOp) (reads : ReadsAs first left) (reads' : ReadsAs second right) :
    ReadsAs (joined op first second)
      (.binary op (.grouping left) (.grouping (moveLines (· + (newlines first.toList + 1 : Int)) right))
        (newlines first.toList + 2)) := by
  obtain ⟨tokens, scans, phrase⟩ := readsAs_iff.mp reads
  obtain ⟨tokens', scans', phrase'⟩ := readsAs_iff.mp reads'
  generalize (newlines first.toList : Int) = lines at *
  obtain ⟨kind, lexical, symbol⟩ := @operator_lexical op ('(' :: (second.toList ++ ['\n', ')'])) (by simp)
  have between := scans_token lexical (1 + lines + 1)
  have unbroken : newlines op.symbol.toList = 0 := by cases op <;> decide
  rw [unbroken, Int.natCast_zero, Int.add_zero] at between
  have moved := scans'.move (lines + 1)
  rw [← Int.add_assoc] at moved
  have whole := (scans.grouped _).append (between.append (moved.grouped []))
  have text : (Proofs.joined op first second).toList = '(' :: (first.toList ++ '\n' :: ')' ::
      (op.symbol.toList ++ '(' :: (second.toList ++ ['\n', ')']))) := by
    simp [Proofs.joined]
  rw [← text] at whole
  have scanned := whole.scan_eq
  rw [String.ofList_toList] at scanned
  have place : lines + 2 = 1 + lines + 1 := by omega
  rw [place]
  apply Derives.readsAs scanned
  exact Derives.operation (symbol _) (phrase.grouped _ _) ((phrase'.move _).grouped _ _)

theorem ofProblem_moveFault (fault : EvalFault) (shift : Int) :
    Diagnostic.ofProblem (moveFault (· + shift) fault).problem =
      { Diagnostic.ofProblem fault.problem with line := (Diagnostic.ofProblem fault.problem).line + shift } := by
  cases fault <;> rfl

theorem ReadsAs.single {value : Value} (reads : ReadsAs source expr) (evaluated : expr.eval = .ok value) :
    SingleValue value := by
  obtain ⟨-, attempts⟩ := reads
  obtain ⟨moved, gives, -⟩ := attempts {}
  exact run_single (congrArg Prod.fst gives) evaluated

theorem conclusion_joins (op : BinaryOp) (lines : Int) (reads : ReadsAs first left) (reads' : ReadsAs second right) :
    Joins op lines (conclusion left) (conclusion right)
      (conclusion (.binary op (.grouping left) (.grouping (moveLines (· + (lines + 1)) right)) (lines + 2))) := by
  simp only [conclusion, Expr.eval, eval_moveLines]
  cases evaluated : left.eval with
  | error fault => exact .left rfl
  | ok value =>
    cases evaluated' : right.eval with
    | error fault =>
      simp only [Except.mapError, ofProblem_moveFault]
      exact .right rfl
    | ok value' =>
      simp only [Except.mapError]
      cases applied : op.result? value value' with
      | some result =>
        have applies := (applies_iff (reads.single evaluated) (reads'.single evaluated')).mpr applied
        exact .both ((binary_result applied _).mpr rfl) applies
      | none => exact .refused (binary_refused applied)

end

/-- Two complete sources in parentheses, with an operator between them, are a complete source again,
and its outcome is theirs put together. -/
theorem run_joined (op : BinaryOp) {first second : String} (complete : Complete first)
    (complete' : Complete second) :
    Complete (joined op first second) ∧
      Joins op (newlines first.toList) (run first).outcome (run second).outcome
        (run (joined op first second)).outcome := by
  obtain ⟨left, reads⟩ := complete
  obtain ⟨right, reads'⟩ := complete'
  have whole := reads.joined op reads'
  refine ⟨⟨_, whole⟩, ?_⟩
  rw [reads.run_outcome, reads'.run_outcome, whole.run_outcome]
  exact conclusion_joins op _ reads reads'

theorem Complete.of_run {source : String} (expr : Expr) (position : Nat) (clean : (scan source).problems = [])
    (gives : Parser.run { tokens := (scan source).tokens } .expression =
      (.ok expr, { tokens := (scan source).tokens, position }))
    (ends : Parser.isAtEnd { tokens := (scan source).tokens, position } = .ok true) : Complete source :=
  ⟨expr, readsAs_of_run clean gives ends⟩

/-- One part ends in a comment and has a line end in a string. A failing part on its right fails on its own first
line, which is the third of the whole, and one on its left is all that is seen. Values of types that the operator
does not admit are refused on the third line; those of 1 and 3 give a third, rounded to a single. -/
theorem run_joined_commented :
    (Complete "\"a\nb\" // c" ∧ Complete "!\nnil" ∧ Complete "1 // one" ∧ Complete "3") ∧
      (run (joined .equal "\"a\nb\" // c" "!\nnil")).outcome =
        failure ⟨.runtime, 3, "", "Cannot perform 'Not' on operand 'nil'"⟩ ∧
      (run (joined .equal "!\nnil" "\"a\nb\" // c")).outcome =
        failure ⟨.runtime, 1, "", "Cannot perform 'Not' on operand 'nil'"⟩ ∧
      (run (joined .minus "\"a\nb\" // c" "\"a\nb\" // c")).outcome =
        failure ⟨.runtime, 3, "", "Cannot perform 'Minus' on operands 'a\nb' and 'a\nb'"⟩ ∧
      (run (joined .divide "1 // one" "3")).outcome.ok = true ∧
      (run (joined .divide "1 // one" "3")).outcome.text = "0.33333334" := by
  have commented : Complete "\"a\nb\" // c" := by
    apply Complete.of_run (.literal (.string "a\nb")) 1 <;> decide +kernel
  have failing : Complete "!\nnil" := by
    apply Complete.of_run (.unary .not (.literal .nil) 1) 2 <;> decide +kernel
  have one : Complete "1 // one" := by
    apply Complete.of_run (.literal (.number (.finite false Number.one))) 1 <;> decide +kernel
  have three : Complete "3" := by
    apply Complete.of_run (.literal (.number (.finite false (3 * Number.one)))) 1 <;> decide +kernel
  have text : (run "\"a\nb\" // c").outcome = { value := .string "a\nb" } := by decide +kernel
  have fails : (run "!\nnil").outcome = failure ⟨.runtime, 1, "", "Cannot perform 'Not' on operand 'nil'"⟩ := by
    decide +kernel
  have first : (run "1 // one").outcome = { value := .number (.finite false Number.one) } := by decide +kernel
  have second : (run "3").outcome = { value := .number (.finite false (3 * Number.one)) } := by decide +kernel
  have right := (run_joined .equal commented failing).2
  have left := (run_joined .equal failing commented).2
  have refused := (run_joined .minus commented commented).2
  have divided := (run_joined .divide one three).2
  rw [text, fails] at right
  rw [fails, text] at left
  rw [text] at refused
  rw [first, second] at divided
  generalize (run (joined .divide "1 // one" "3")).outcome = quotient at divided ⊢
  refine ⟨⟨commented, failing, one, three⟩, ?_, ?_, ?_, ?_⟩
  · generalize (run _).outcome = whole at right ⊢
    cases right
    rfl
  · generalize (run _).outcome = whole at left ⊢
    cases left
    rfl
  · generalize (run _).outcome = whole at refused ⊢
    cases refused with
    | both admitted _ => simp [binarySignatures, Value.type] at admitted
    | refused => rfl
  · cases divided with
    | refused none => exact absurd (by decide) (none .number)
    | @both _ _ value _ applies =>
      have third : (BinaryOp.divide.result? (.number (.finite false Number.one))
          (.number (.finite false (3 * Number.one)))).map Value.text = some "0.33333334" := by decide +kernel
      have single : (Number.finite false Number.one).toSingle = .finite false Number.one := by decide +kernel
      have single' : (Number.finite false (3 * Number.one)).toSingle = .finite false (3 * Number.one) := by
        decide +kernel
      rw [applies.result_eq single single'] at third
      exact ⟨rfl, Option.some.inj third⟩

end Lox.Proofs
