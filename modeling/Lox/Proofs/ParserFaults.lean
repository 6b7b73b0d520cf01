import Lox.Proofs.ParserGrammar

/-! A parse fault is found at the first token that no expression could have there. What was
read before it can still be completed, with that token it cannot, and the last token read
tells which of the two messages is given. -/

namespace Lox.Proofs

def operandEnds : List Kind :=
  [.number, .string, .keyword .true, .keyword .false, .keyword .nil, .symbol .rightParen]

theorem Derives.ends {rule : Rule} {tokens : List Token} {expr : Expr}
    (phrase : Derives rule tokens expr) :
    ∃ last, tokens.getLast? = some last ∧ last.kind ∈ operandEnds := by
  induction phrase with
  | pass _ _ ih => exact ih
  | operator _ _ _ _ _ ih | sign _ _ ih =>
    obtain ⟨last, found, kind⟩ := ih
    exact ⟨last, by simp [found, List.getLast?_cons], kind⟩
  | @atom token value operand =>
    refine ⟨token, rfl, ?_⟩
    cases operand with
    | number kind | string kind | true kind | false kind | nil kind => simp [kind, operandEnds]
  | @group opening closing tokens expr opens _ closes _ =>
    exact ⟨closing, List.getLast?_concat .., by simp [closes, operandEnds]⟩

/-- What a faulty reading of the task began can be completed. After a left operand, together
with the tokens of that operand. -/
def Task.Viable : Task → List Token → Prop
  | .rule goal, read => ∃ more expr, Derives goal (read ++ more) expr
  | .more level left, read => ∀ before, Derives (.binary level) before left →
    ∃ more expr, Derives (.binary level) (before ++ (read ++ more)) expr

theorem Reads.viable {task : Task} {read : List Token} {next : Token}
    {result : Except ParseFault Expr} (reads : Reads task read next result) :
    ∀ cause, result = .error cause → task.Viable read := by
  induction reads with
  | expression _ ih =>
    intro cause same
    obtain ⟨more, expr, phrase⟩ := ih cause same
    exact ⟨more, expr, .pass .expression phrase⟩
  | operandFault _ ih =>
    intro cause same
    obtain ⟨more, expr, phrase⟩ := ih cause same
    exact ⟨more, expr, .pass (tighter_binary_iff.mpr rfl) phrase⟩
  | operand first _ _ ihLater =>
    intro cause same
    have left := first.derives
    obtain ⟨more, expr, phrase⟩ := ihLater cause same _ (.pass (tighter_binary_iff.mpr rfl) left)
    exact ⟨more, expr, by simpa using phrase⟩
  | signFault sign _ ih =>
    intro cause same
    obtain ⟨more, expr, phrase⟩ := ih cause same
    exact ⟨more, _, .sign (sign_iff.mpr sign) phrase⟩
  | unsigned _ _ ih =>
    intro cause same
    obtain ⟨more, expr, phrase⟩ := ih cause same
    exact ⟨more, expr, .pass .unary phrase⟩
  | groupFault opens _ ih =>
    intro cause same
    obtain ⟨more, expr, phrase⟩ := ih cause same
    refine ⟨more ++ [⟨.symbol .rightParen, ")", 0, .nil⟩], .grouping expr, ?_⟩
    rw [← List.append_assoc]
    exact .group opens phrase rfl
  | unclosed opens inner _ _ =>
    intro cause same
    exact ⟨[⟨.symbol .rightParen, ")", 0, .nil⟩], _, .group opens inner.derives rfl⟩
  | noOperand _ _ =>
    intro cause same
    exact ⟨[⟨.keyword .nil, "nil", 0, .nil⟩], _, .atom (.nil rfl)⟩
  | moreFault found _ ih =>
    intro cause same before left
    obtain ⟨more, expr, phrase⟩ := ih cause same
    exact ⟨more, _, left.step found phrase⟩
  | more found first _ _ ihLater =>
    intro cause same before left
    have joined := left.step found first.derives
    obtain ⟨more, expr, phrase⟩ := ihLater cause same _ joined
    exact ⟨more, expr, by simpa using phrase⟩
  | sign _ _ _ | atom _ | group _ _ _ _ | stop _ => intro cause same; cases same

/-- The fault is that of the next token, and its message follows from the last token read. -/
inductive Blames (read : List Token) (next : Token) : ParseFault → Prop where
  | closing {last : Token} (found : read.getLast? = some last) (ends : last.kind ∈ operandEnds) :
      Blames read next (.expectedClosing next)
  | operand (open_ : ∀ last, read.getLast? = some last → last.kind ∉ operandEnds) :
      Blames read next (.expectedOperand next)

theorem Blames.cons {token next : Token} {read : List Token} {cause : ParseFault}
    (blames : Blames read next cause) (opens : token.kind ∉ operandEnds) :
    Blames (token :: read) next cause := by
  cases blames with
  | closing found ends => exact .closing (by simp [List.getLast?_cons, found]) ends
  | operand open_ =>
    refine .operand fun last found => ?_
    cases before : read.getLast? with
    | none =>
      obtain rfl : token = last := by simpa [List.getLast?_cons, before] using found
      exact opens
    | some final =>
      obtain rfl : final = last := by simpa [List.getLast?_cons, before] using found
      exact open_ final before

theorem Blames.append {ahead read : List Token} {next : Token} {cause : ParseFault}
    (blames : Blames read next cause) (some : read ≠ []) : Blames (ahead ++ read) next cause := by
  have same : (ahead ++ read).getLast? = read.getLast? := by
    simp [List.getLast?_append, List.getLast?_eq_some_getLast some]
  cases blames with
  | closing found ends => exact .closing (same.trans found) ends
  | operand open_ => exact .operand fun last found => open_ last (same.symm.trans found)

private theorem more_fault_ne_nil {level : Level} {left : Expr} {read : List Token} {next : Token}
    {cause : ParseFault} (reads : Reads (.more level left) read next (.error cause)) : read ≠ [] := by
  cases reads <;> simp

private theorem operator_not_end {token : Token} {op : BinaryOp}
    (found : token.kind.binaryOp? = some op) : token.kind ∉ operandEnds := by
  intro member
  simp only [operandEnds, List.mem_cons, List.not_mem_nil, or_false] at member
  rcases member with kind | kind | kind | kind | kind | kind <;> simp [kind, Kind.binaryOp?] at found

private theorem sign_not_end {token : Token} {op : UnaryOp}
    (found : token.kind.unaryOp? = some op) : token.kind ∉ operandEnds := by
  intro member
  simp only [operandEnds, List.mem_cons, List.not_mem_nil, or_false] at member
  rcases member with kind | kind | kind | kind | kind | kind <;> simp [kind, Kind.unaryOp?] at found

theorem Reads.blames {task : Task} {read : List Token} {next : Token}
    {result : Except ParseFault Expr} (reads : Reads task read next result) :
    ∀ cause, result = .error cause → Blames read next cause := by
  induction reads with
  | expression _ ih | operandFault _ ih | unsigned _ _ ih => exact ih
  | operand _ later _ ihLater =>
    rintro cause rfl
    exact (ihLater cause rfl).append (more_fault_ne_nil later)
  | signFault sign _ ih =>
    intro cause same
    exact (ih cause same).cons (sign_not_end sign)
  | groupFault opens _ ih =>
    intro cause same
    exact (ih cause same).cons (by simp [opens, operandEnds])
  | unclosed _ inner _ _ =>
    rintro cause ⟨⟩
    obtain ⟨last, found, ends⟩ := inner.derives.ends
    exact .closing (by simp [List.getLast?_cons, found]) ends
  | noOperand _ _ =>
    rintro cause ⟨⟩
    exact .operand (by simp)
  | moreFault found _ ih =>
    intro cause same
    exact (ih cause same).cons (operator_not_end found)
  | more found _ later _ ihLater =>
    rintro cause rfl
    exact (ihLater cause rfl).append (more_fault_ne_nil later)
  | sign _ _ _ | atom _ | group _ _ _ _ | stop _ => intro cause same; cases same

/-- A faulty reading excludes every expression that begins with what it saw. The parser would
find that expression, and it cannot know which tokens come after the one at fault. -/
theorem Reads.impossible {read : List Token} {next : Token} {cause : ParseFault}
    (reads : Reads (.rule .expression) read next (.error cause)) (more : List Token) (expr : Expr) :
    ¬ Derives .expression (read ++ next :: more) expr := by
  intro phrase
  have closed : Closes .expression (.eof 0) := closes_expression_iff.mpr (by decide)
  have found := (phrase.found.closed _ closed).run []
  rw [List.append_assoc, List.cons_append, reads.run] at found
  cases found

theorem Reads.incomplete {read : List Token} {next : Token} {cause : ParseFault}
    (reads : Reads (.rule .expression) read next (.error cause)) (expr : Expr) :
    ¬ Derives .expression read expr := by
  intro phrase
  by_cases operator : next.kind ∈ binaryKinds
  · obtain ⟨op, found⟩ := mem_binaryKinds_iff.mp operator
    have operand : Derives .primary [⟨.keyword .nil, "nil", 0, .nil⟩] (.literal .nil) := .atom (.nil rfl)
    obtain ⟨whole, longer⟩ := phrase.join (operator_iff.mpr ⟨found, rfl⟩) operand
    exact reads.impossible _ whole longer
  · have found := (phrase.found.closed next (closes_expression_iff.mpr operator)).run []
    rw [reads.run] at found
    cases found

def AfterOperand (tokens : List Token) (position : Nat) : Prop :=
  0 < position ∧ ∃ last, tokens[position - 1]? = some last ∧ last.kind ∈ operandEnds

theorem afterOperand_iff {read rest : List Token} :
    AfterOperand (read ++ rest) read.length ↔
      ∃ last, read.getLast? = some last ∧ last.kind ∈ operandEnds := by
  unfold AfterOperand
  cases read with
  | nil => simp
  | cons first read =>
    rw [List.getLast?_eq_getElem?, List.getElem?_append_left (by simp)]
    simp

/-- When parsing gives no tree, exactly one diagnostic is added, at the first token that no
expression has after the tokens before it. -/
theorem attempt_fault_first_impossible (tokens : List Token) (ended : Ended tokens)
    (reporter : Reporter) (failed : (Parser.attempt { tokens } reporter).1 = .ok none) :
    ∃ (k : Nat) (found : Token) (message : String),
      (Parser.attempt { tokens } reporter).2.1.position = k ∧ tokens[k]? = some found ∧
      (Parser.attempt { tokens } reporter).2.2.diagnostics = reporter.diagnostics ++
        [{ stage := .parse, line := found.line, message := message,
           location := if found.kind = .eof then " at end" else " at '" ++ found.lexeme ++ "'" }] ∧
      (∃ more expr, Derives .expression (tokens.take k ++ more) expr) ∧
      (∀ more expr, ¬ Derives .expression (tokens.take (k + 1) ++ more) expr) ∧
      (∀ expr, ¬ Derives .expression (tokens.take k) expr) ∧
      (message = "Expected ')'." ↔ AfterOperand tokens k) ∧
      (message = "Expected a literal or '('." ↔ ¬ AfterOperand tokens k) := by
  obtain ⟨read, next, tail, result, rfl, reads, _⟩ :=
    exists_reads (.rule .expression) tokens ended.hasEnd
  cases result with
  | ok expr =>
    rw [reads.attempt_tree tail reporter] at failed
    cases failed
  | error cause =>
    have blames := reads.blames cause rfl
    obtain ⟨message, rfl, closing, operand⟩ : ∃ message, cause = .unexpected next message ∧
        (message = "Expected ')'." ↔ AfterOperand (read ++ next :: tail) read.length) ∧
        (message = "Expected a literal or '('." ↔ ¬ AfterOperand (read ++ next :: tail) read.length) := by
      rw [afterOperand_iff]
      cases blames with
      | closing found ends => exact ⟨_, rfl, by simpa using ⟨_, found, ends⟩, by simpa using ⟨_, found, ends⟩⟩
      | operand open_ => exact ⟨_, rfl, by simpa using open_, by simpa using open_⟩
    rw [reads.attempt_fault tail reporter]
    have start : (read ++ next :: tail).take read.length = read := by simp
    have longer : (read ++ next :: tail).take (read.length + 1) = read ++ [next] := by
      rw [List.take_append, List.take_of_length_le (Nat.le_succ _)]
      simp
    refine ⟨read.length, next, message, rfl, by simp, rfl, ?_, ?_, ?_, closing, operand⟩
    · rw [start]
      exact reads.viable _ rfl
    · intro more expr
      rw [longer, List.append_assoc]
      exact reads.impossible more expr
    · rw [start]
      exact reads.incomplete

/-- The tokens of `!(nil true`. -/
def unclosedGroup : List Token :=
  [⟨.symbol .bang, "!", 1, .nil⟩, ⟨.symbol .leftParen, "(", 1, .nil⟩, ⟨.keyword .nil, "nil", 1, .nil⟩,
    ⟨.keyword .true, "true", 1, .nil⟩, .eof 1]

theorem attempt_unclosedGroup :
    Ended unclosedGroup ∧ (Parser.attempt { tokens := unclosedGroup } {}).1 = .ok none ∧
    ∃ k, (Parser.attempt { tokens := unclosedGroup } {}).2.1.position = k ∧
      ∀ more expr, ¬ Derives .expression (unclosedGroup.take (k + 1) ++ more) expr := by
  have ended : Ended unclosedGroup :=
    ⟨unclosedGroup.dropLast, .eof 1, rfl, by simp [NoEnd, unclosedGroup], rfl⟩
  have failed : (Parser.attempt { tokens := unclosedGroup } {}).1 = .ok none := by cbv
  obtain ⟨k, _, _, stops, _, _, _, impossible, _⟩ :=
    attempt_fault_first_impossible unclosedGroup ended {} failed
  exact ⟨ended, failed, k, stops, impossible⟩

end Lox.Proofs
