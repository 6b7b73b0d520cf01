import Lox.Expr.Grammar

/-! What the parser reads before it stops. A trace names the tokens that were taken, the one
token looked at after them, and the result; tokens further on do not occur in it. Every run
on tokens with an end of input has a trace, and a trace gives the run back for any tokens
that may follow. -/

namespace Lox.Proofs

/-- What the parser is at: a rule, or the further operators of a level after an operand. -/
inductive Task where
  | rule (rule : Rule)
  | more (level : Level) (left : Expr)

/-- The result of reading and the tokens left, without the bound on their number. -/
def outcome {bound : Nat} : Parsed bound → Except ParseFault Expr × List Token
  | .tree expr rest _ => (.ok expr, rest)
  | .fault cause rest => (.error cause, rest)

def Task.run : Task → List Token → Except ParseFault Expr × List Token
  | .rule goal, tokens => outcome (parse goal tokens)
  | .more level left, tokens => outcome (parseMore level left tokens)

/-- `Reads task read next result`: the task takes the tokens `read`, stops at `next` without
taking it, and ends in `result`. -/
inductive Reads : Task → List Token → Token → Except ParseFault Expr → Prop where
  | expression {read next result} (phrase : Reads (.rule (.binary .equality)) read next result) :
      Reads (.rule .expression) read next result
  | operandFault {level : Level} {read next cause}
      (operand : Reads (.rule level.operand) read next (.error cause)) :
      Reads (.rule (.binary level)) read next (.error cause)
  | operand {level : Level} {ahead read next left result}
      (first : Reads (.rule level.operand) ahead (read.headD next) (.ok left))
      (later : Reads (.more level left) read next result) :
      Reads (.rule (.binary level)) (ahead ++ read) next result
  | signFault {token : Token} {op read next cause} (sign : token.kind.unaryOp? = some op)
      (operand : Reads (.rule .unary) read next (.error cause)) :
      Reads (.rule .unary) (token :: read) next (.error cause)
  | sign {token : Token} {op read next expr} (sign : token.kind.unaryOp? = some op)
      (operand : Reads (.rule .unary) read next (.ok expr)) :
      Reads (.rule .unary) (token :: read) next (.ok (.unary op expr token.line))
  | unsigned {read next result} (plain : (read.headD next).kind.unaryOp? = none)
      (phrase : Reads (.rule .primary) read next result) :
      Reads (.rule .unary) read next result
  | atom {token : Token} {value next} (operand : token.operand? = some value) :
      Reads (.rule .primary) [token] next (.ok (.literal value))
  | groupFault {opening : Token} {read next cause} (opens : opening.kind = .symbol .leftParen)
      (inner : Reads (.rule .expression) read next (.error cause)) :
      Reads (.rule .primary) (opening :: read) next (.error cause)
  | unclosed {opening next : Token} {read expr} (opens : opening.kind = .symbol .leftParen)
      (inner : Reads (.rule .expression) read next (.ok expr))
      (missing : next.kind ≠ .symbol .rightParen) :
      Reads (.rule .primary) (opening :: read) next (.error (.expectedClosing next))
  | group {opening closing : Token} {read next expr} (opens : opening.kind = .symbol .leftParen)
      (inner : Reads (.rule .expression) read closing (.ok expr))
      (closes : closing.kind = .symbol .rightParen) :
      Reads (.rule .primary) (opening :: read ++ [closing]) next (.ok (.grouping expr))
  | noOperand {next : Token} (literal : next.operand? = none)
      (paren : next.kind ≠ .symbol .leftParen) :
      Reads (.rule .primary) [] next (.error (.expectedOperand next))
  | stop {level left} {next : Token}
      (other : ∀ op, next.kind.binaryOp? = some op → op.level ≠ level) :
      Reads (.more level left) [] next (.ok left)
  | moreFault {token : Token} {op : BinaryOp} {left read next cause}
      (found : token.kind.binaryOp? = some op)
      (operand : Reads (.rule op.level.operand) read next (.error cause)) :
      Reads (.more op.level left) (token :: read) next (.error cause)
  | more {token : Token} {op : BinaryOp} {left right ahead read next result}
      (found : token.kind.binaryOp? = some op)
      (first : Reads (.rule op.level.operand) ahead (read.headD next) (.ok right))
      (later : Reads (.more op.level (.binary op left right token.line)) read next result) :
      Reads (.more op.level left) (token :: ahead ++ read) next result

theorem outcome_widen {small large : Nat} (within : small ≤ large) (parsed : Parsed small) :
    outcome (parsed.widen within) = outcome parsed := by
  cases parsed <;> rfl

theorem run_binary (level : Level) (tokens : List Token) :
    Task.run (.rule (.binary level)) tokens = match Task.run (.rule level.operand) tokens with
      | (.ok left, rest) => Task.run (.more level left) rest
      | (.error cause, rest) => (.error cause, rest) := by
  simp only [Task.run]
  rw [parse]
  cases parse level.operand tokens with
  | fault cause rest => rfl
  | tree left rest fewer => exact outcome_widen _ _

theorem run_sign {token : Token} {op : UnaryOp} (rest : List Token)
    (sign : token.kind.unaryOp? = some op) :
    Task.run (.rule .unary) (token :: rest) = match Task.run (.rule .unary) rest with
      | (.ok operand, rest) => (.ok (.unary op operand token.line), rest)
      | (.error cause, rest) => (.error cause, rest) := by
  simp only [Task.run]
  rw [parse, sign]
  dsimp only
  cases parse .unary rest <;> rfl

theorem run_group {opening : Token} (rest : List Token)
    (opens : opening.kind = .symbol .leftParen) :
    Task.run (.rule .primary) (opening :: rest) = match Task.run (.rule .expression) rest with
      | (.error cause, rest) => (.error cause, rest)
      | (.ok _, []) => (.error .outOfTokens, [])
      | (.ok inner, closing :: after) =>
        if closing.kind = .symbol .rightParen then (.ok (.grouping inner), after)
        else (.error (.expectedClosing closing), closing :: after) := by
  have literal : opening.operand? = none := by simp [Token.operand?, opens]
  simp only [Task.run]
  conv => lhs; rw [parse, literal]
  simp only [opens, if_true]
  cases parse .expression rest with
  | fault cause rest => rfl
  | tree inner rest fewer =>
    cases rest with
    | nil => rfl
    | cons closing after =>
      by_cases closes : closing.kind = .symbol .rightParen <;> simp only [closes, if_true, if_false, outcome]

theorem run_more {token : Token} {op : BinaryOp} (left : Expr) (rest : List Token)
    (found : token.kind.binaryOp? = some op) :
    Task.run (.more op.level left) (token :: rest) =
      match Task.run (.rule op.level.operand) rest with
      | (.ok right, rest) => Task.run (.more op.level (.binary op left right token.line)) rest
      | (.error cause, rest) => (.error cause, rest) := by
  simp only [Task.run]
  rw [parseMore, found]
  simp only [if_true]
  cases parse op.level.operand rest with
  | fault cause rest => rfl
  | tree right rest fewer => exact outcome_widen _ _

theorem run_stop {level : Level} {next : Token} (left : Expr) (tail : List Token)
    (other : ∀ op, next.kind.binaryOp? = some op → op.level ≠ level) :
    Task.run (.more level left) (next :: tail) = (.ok left, next :: tail) := by
  simp only [Task.run]
  rw [parseMore]
  cases found : next.kind.binaryOp? with
  | none => rfl
  | some op => simp only [other op found, if_false, outcome]

theorem append_cons_eq (read : List Token) (next : Token) (tail : List Token) :
    ∃ later, read ++ next :: tail = read.headD next :: later := by
  cases read with
  | nil => exact ⟨tail, rfl⟩
  | cons first read => exact ⟨read ++ next :: tail, rfl⟩

/-- A trace determines the run, with any tokens after the last one it looked at. -/
theorem Reads.run {task : Task} {read : List Token} {next : Token}
    {result : Except ParseFault Expr} (reads : Reads task read next result) (tail : List Token) :
    task.run (read ++ next :: tail) = (result, next :: tail) := by
  induction reads generalizing tail with
  | expression _ ih =>
    have same := ih tail
    simp only [Task.run] at same ⊢
    rw [parse, same]
  | operandFault _ ih => rw [run_binary, ih tail]
  | @operand level ahead read next left result _ _ ihFirst ihLater =>
    obtain ⟨later, split⟩ := append_cons_eq read next tail
    rw [List.append_assoc, split, run_binary, ihFirst later]
    exact split ▸ ihLater tail
  | signFault sign _ ih => rw [List.cons_append, run_sign _ sign, ih tail]
  | sign sign _ ih => rw [List.cons_append, run_sign _ sign, ih tail]
  | @unsigned read next result plain _ ih =>
    obtain ⟨later, split⟩ := append_cons_eq read next tail
    have same := ih tail
    rw [split] at same ⊢
    simp only [Task.run] at same ⊢
    rw [parse, plain]
    exact same
  | @atom token value next operand =>
    change outcome (parse .primary (token :: next :: tail)) = _
    rw [parse, operand]
    rfl
  | groupFault opens _ ih => rw [List.cons_append, run_group _ opens, ih tail]
  | unclosed opens _ missing ih =>
    rw [List.cons_append, run_group _ opens, ih tail]
    simp only [missing, if_false]
  | @group opening closing read next expr opens _ closes ih =>
    have same := ih (next :: tail)
    rw [List.append_assoc, List.cons_append, run_group _ opens, List.singleton_append, same]
    simp only [closes, if_true]
  | @noOperand next literal paren =>
    change outcome (parse .primary (next :: tail)) = _
    rw [parse, literal]
    simp only [paren, if_false, outcome]
  | stop other => exact run_stop _ _ other
  | moreFault found _ ih => rw [List.cons_append, run_more _ _ found, ih tail]
  | @more token op left right ahead read next result found _ _ ihFirst ihLater =>
    obtain ⟨later, split⟩ := append_cons_eq read next tail
    rw [List.append_assoc, List.cons_append, split, run_more _ _ found, ihFirst later]
    exact split ▸ ihLater tail

def Task.work : Task → List Token → Nat
  | .rule goal, tokens => 7 * tokens.length + goal.rank
  | .more _ _, tokens => 7 * tokens.length

def HasEnd (tokens : List Token) : Prop := ∃ token ∈ tokens, token.kind = .eof

def NoEnd (tokens : List Token) : Prop := ∀ token ∈ tokens, token.kind ≠ .eof

theorem NoEnd.cons {token : Token} {rest : List Token} (other : token.kind ≠ .eof)
    (others : NoEnd rest) : NoEnd (token :: rest) :=
  List.forall_mem_cons.mpr ⟨other, others⟩

theorem NoEnd.append {first second : List Token} (before : NoEnd first) (after : NoEnd second) :
    NoEnd (first ++ second) :=
  List.forall_mem_append.mpr ⟨before, after⟩

theorem HasEnd.tail {token : Token} {rest : List Token} (ended : HasEnd (token :: rest))
    (other : token.kind ≠ .eof) : HasEnd rest := by
  obtain ⟨last, member, kind⟩ := ended
  rcases List.mem_cons.mp member with rfl | later
  · exact absurd kind other
  · exact ⟨last, later, kind⟩

theorem HasEnd.rest {read rest : List Token} (ended : HasEnd (read ++ rest))
    (others : NoEnd read) : HasEnd rest := by
  obtain ⟨last, member, kind⟩ := ended
  rcases List.mem_append.mp member with early | later
  · exact absurd kind (others last early)
  · exact ⟨last, later, kind⟩

theorem HasEnd.exists_cons {tokens : List Token} (ended : HasEnd tokens) :
    ∃ token rest, tokens = token :: rest := by
  obtain ⟨last, member, _⟩ := ended
  exact List.exists_cons_of_ne_nil (List.ne_nil_of_mem member)

theorem headD_eq {read tail later : List Token} {next first : Token}
    (same : first :: later = read ++ next :: tail) : read.headD next = first := by
  obtain ⟨_, split⟩ := append_cons_eq read next tail
  rw [split] at same
  exact (List.cons.inj same).1.symm

/-- A task has stopped: it took some of the tokens, none of them the end of input. -/
def Task.Stops (task : Task) (tokens : List Token) : Prop :=
  ∃ read next tail result, tokens = read ++ next :: tail ∧ Reads task read next result ∧
    NoEnd read

private theorem binary_stops {level : Level} {tokens : List Token} (ended : HasEnd tokens)
    (first : (Task.rule level.operand).Stops tokens)
    (later : ∀ left rest, HasEnd rest → rest.length ≤ tokens.length →
      (Task.more level left).Stops rest) : (Task.rule (.binary level)).Stops tokens := by
  obtain ⟨ahead, following, tail, result, rfl, first, taken⟩ := first
  cases result with
  | error cause => exact ⟨ahead, following, tail, _, rfl, .operandFault first, taken⟩
  | ok left =>
    obtain ⟨read, next, tail', result, split, later, taken'⟩ :=
      later left (following :: tail) (ended.rest taken) (by simp)
    rw [← headD_eq split] at first
    refine ⟨ahead ++ read, next, tail', result, ?_, .operand first later, ?_⟩
    · rw [split, List.append_assoc]
    · exact taken.append taken'

private theorem unary_stops {token : Token} {rest : List Token} (ended : HasEnd (token :: rest))
    (primary : (Task.rule .primary).Stops (token :: rest))
    (operand : HasEnd rest → (Task.rule .unary).Stops rest) :
    (Task.rule .unary).Stops (token :: rest) := by
  cases sign : token.kind.unaryOp? with
  | none =>
    obtain ⟨read, next, tail, result, split, reads, taken⟩ := primary
    rw [← headD_eq split] at sign
    exact ⟨read, next, tail, result, split, .unsigned sign reads, taken⟩
  | some op =>
    have other : token.kind ≠ .eof := by
      intro kind
      simp [kind, Kind.unaryOp?] at sign
    obtain ⟨read, next, tail, result, rfl, reads, taken⟩ := operand (ended.tail other)
    have all := NoEnd.cons other taken
    cases result with
    | error cause => exact ⟨token :: read, next, tail, _, rfl, .signFault sign reads, all⟩
    | ok expr => exact ⟨token :: read, next, tail, _, rfl, .sign sign reads, all⟩

private theorem group_stops {opening : Token} {rest : List Token} (ended : HasEnd (opening :: rest))
    (opens : opening.kind = .symbol .leftParen)
    (inner : HasEnd rest → (Task.rule .expression).Stops rest) :
    (Task.rule .primary).Stops (opening :: rest) := by
  have other : opening.kind ≠ .eof := by simp [opens]
  have inside := ended.tail other
  obtain ⟨read, next, tail, result, rfl, reads, taken⟩ := inner inside
  have all := NoEnd.cons other taken
  cases result with
  | error cause => exact ⟨opening :: read, next, tail, _, rfl, .groupFault opens reads, all⟩
  | ok expr =>
    by_cases closes : next.kind = .symbol .rightParen
    · have middle : next.kind ≠ .eof := by simp [closes]
      obtain ⟨after, tail, rfl⟩ := ((inside.rest taken).tail middle).exists_cons
      refine ⟨opening :: read ++ [next], after, tail, _, by simp, .group opens reads closes, ?_⟩
      exact all.append (.cons middle (by simp [NoEnd]))
    · exact ⟨opening :: read, next, tail, _, rfl, .unclosed opens reads closes, all⟩

private theorem primary_stops {token : Token} {rest : List Token} (ended : HasEnd (token :: rest))
    (inner : HasEnd rest → (Task.rule .expression).Stops rest) :
    (Task.rule .primary).Stops (token :: rest) := by
  cases literal : token.operand? with
  | some value =>
    have other : token.kind ≠ .eof := by
      intro kind
      simp [kind, Token.operand?] at literal
    obtain ⟨next, tail, rfl⟩ := (ended.tail other).exists_cons
    exact ⟨[token], next, tail, _, rfl, .atom literal, .cons other (by simp [NoEnd])⟩
  | none =>
    by_cases opens : token.kind = .symbol .leftParen
    · exact group_stops ended opens inner
    · exact ⟨[], token, rest, _, rfl, .noOperand literal opens, by simp [NoEnd]⟩

private theorem more_stops {level : Level} {left : Expr} {token : Token} {rest : List Token}
    (ended : HasEnd (token :: rest))
    (first : HasEnd rest → (Task.rule level.operand).Stops rest)
    (later : ∀ left after, HasEnd after → after.length ≤ rest.length →
      (Task.more level left).Stops after) : (Task.more level left).Stops (token :: rest) := by
  by_cases other : ∀ op, token.kind.binaryOp? = some op → op.level ≠ level
  · exact ⟨[], token, rest, _, rfl, .stop other, by simp [NoEnd]⟩
  · obtain ⟨op, found, rfl⟩ : ∃ op, token.kind.binaryOp? = some op ∧ op.level = level := by
      simpa using other
    have middle : token.kind ≠ .eof := by
      intro kind
      simp [kind, Kind.binaryOp?] at found
    have inside := ended.tail middle
    obtain ⟨ahead, following, tail, result, rfl, first, taken⟩ := first inside
    have all := NoEnd.cons middle taken
    cases result with
    | error cause => exact ⟨token :: ahead, following, tail, _, rfl, .moreFault found first, all⟩
    | ok right =>
      obtain ⟨read, next, tail', result, split, later, taken'⟩ :=
        later (.binary op left right token.line) (following :: tail) (inside.rest taken) (by simp)
      rw [← headD_eq split] at first
      refine ⟨token :: ahead ++ read, next, tail', result, ?_, .more found first later, ?_⟩
      · simp [split]
      · exact all.append taken'

/-- With an end of input among the tokens every task stops at or before it. -/
theorem exists_reads (task : Task) (tokens : List Token) (ended : HasEnd tokens) :
    task.Stops tokens := by
  obtain ⟨token, rest, rfl⟩ := ended.exists_cons
  match task with
  | .rule .expression =>
    obtain ⟨read, next, tail, result, split, reads, taken⟩ :=
      exists_reads (.rule (.binary .equality)) (token :: rest) ended
    exact ⟨read, next, tail, result, split, .expression reads, taken⟩
  | .rule (.binary level) =>
    have tighter := Rule.rank_operand_lt level
    exact binary_stops ended (exists_reads (.rule level.operand) (token :: rest) ended)
      (fun left after ended fewer => exists_reads (.more level left) after ended)
  | .rule .unary =>
    exact unary_stops ended (exists_reads (.rule .primary) (token :: rest) ended)
      (exists_reads (.rule .unary) rest)
  | .rule .primary => exact primary_stops ended (exists_reads (.rule .expression) rest)
  | .more level left =>
    have tighter := Rule.rank_lt level.operand
    exact more_stops ended (exists_reads (.rule level.operand) rest)
      (fun left after ended fewer => exists_reads (.more level left) after ended)
-- As the parser does: by the tokens left, then by how tight the rule is.
termination_by task.work tokens
decreasing_by
  all_goals
    subst_vars
    simp only [Task.work, Rule.rank, List.length_cons] at *
    omega

end Lox.Proofs
