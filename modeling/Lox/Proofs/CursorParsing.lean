import Lox.Proofs.Synchronizing

/-! The rules of the grammar as a cursor goes through them, by looking at its current token, taking it, and
handing on from one rule to the next. As long as there is an end of input ahead, every such execution comes
to an end, in one way only, and reads what the parser reads. -/

namespace Lox.Proofs

def levelKinds : Level → List Kind
  | .equality => [.symbol .bangEqual, .symbol .equalEqual]
  | .comparison => [.symbol .greater, .symbol .greaterEqual, .symbol .less, .symbol .lessEqual]
  | .term => [.symbol .minus, .symbol .plus]
  | .factor => [.symbol .slash, .symbol .star]

def signKinds : List Kind := [.symbol .bang, .symbol .minus]

/-- `Executes task parser result moved`: from this cursor the task comes to an end, with this result, and leaves
the cursor so. There is no execution that goes on forever: a derivation is finite. -/
inductive Executes : Task → Parser → Except ParseFault Expr → Parser → Prop where
  | expression {parser moved : Parser} {result : Except ParseFault Expr}
      (inner : Executes (.rule (.binary .equality)) parser result moved) :
      Executes (.rule .expression) parser result moved
  | operandFault {level : Level} {parser moved : Parser} {cause : ParseFault}
      (first : Executes (.rule level.operand) parser (.error cause) moved) :
      Executes (.rule (.binary level)) parser (.error cause) moved
  | operand {level : Level} {parser middle moved : Parser} {left : Expr} {result : Except ParseFault Expr}
      (first : Executes (.rule level.operand) parser (.ok left) middle)
      (later : Executes (.more level left) middle result moved) :
      Executes (.rule (.binary level)) parser result moved
  | moreLost {level : Level} {left : Expr} {parser moved : Parser} {cause : ParseFault}
      (lost : parser.accept (levelKinds level) = (.error cause, moved)) :
      Executes (.more level left) parser (.error cause) moved
  | stop {level : Level} {left : Expr} {parser moved : Parser}
      (none : parser.accept (levelKinds level) = (.ok none, moved)) :
      Executes (.more level left) parser (.ok left) moved
  | moreFault {level : Level} {left : Expr} {token : Token} {parser stepped moved : Parser} {cause : ParseFault}
      (found : parser.accept (levelKinds level) = (.ok (some token), stepped))
      (operand : Executes (.rule level.operand) stepped (.error cause) moved) :
      Executes (.more level left) parser (.error cause) moved
  | more {level : Level} {left right : Expr} {token : Token} {op : BinaryOp} {parser stepped middle moved : Parser}
      {result : Except ParseFault Expr}
      (found : parser.accept (levelKinds level) = (.ok (some token), stepped))
      (symbol : Operator level token.kind op)
      (operand : Executes (.rule level.operand) stepped (.ok right) middle)
      (later : Executes (.more level (.binary op left right token.line)) middle result moved) :
      Executes (.more level left) parser result moved
  | unaryLost {parser moved : Parser} {cause : ParseFault} (lost : parser.accept signKinds = (.error cause, moved)) :
      Executes (.rule .unary) parser (.error cause) moved
  | unsigned {parser stepped moved : Parser} {result : Except ParseFault Expr}
      (none : parser.accept signKinds = (.ok none, stepped))
      (phrase : Executes (.rule .primary) stepped result moved) : Executes (.rule .unary) parser result moved
  | signFault {token : Token} {parser stepped moved : Parser} {cause : ParseFault}
      (found : parser.accept signKinds = (.ok (some token), stepped))
      (operand : Executes (.rule .unary) stepped (.error cause) moved) :
      Executes (.rule .unary) parser (.error cause) moved
  | sign {token : Token} {op : UnaryOp} {parser stepped moved : Parser} {expr : Expr}
      (found : parser.accept signKinds = (.ok (some token), stepped)) (symbol : Sign token.kind op)
      (operand : Executes (.rule .unary) stepped (.ok expr) moved) :
      Executes (.rule .unary) parser (.ok (.unary op expr token.line)) moved
  | primaryLost {parser : Parser} {cause : ParseFault} (lost : parser.current = .error cause) :
      Executes (.rule .primary) parser (.error cause) parser
  | atom {token : Token} {value : Value} {parser : Parser} (here : parser.current = .ok token)
      (literal : Atom token value) : Executes (.rule .primary) parser (.ok (.literal value)) parser.advance.2
  | groupFault {token : Token} {parser moved : Parser} {cause : ParseFault} (here : parser.current = .ok token)
      (opens : token.kind = .symbol .leftParen)
      (inner : Executes (.rule .expression) parser.advance.2 (.error cause) moved) :
      Executes (.rule .primary) parser (.error cause) moved
  | unclosed {token : Token} {parser middle moved : Parser} {expr : Expr} {cause : ParseFault}
      (here : parser.current = .ok token) (opens : token.kind = .symbol .leftParen)
      (inner : Executes (.rule .expression) parser.advance.2 (.ok expr) middle)
      (missing : middle.expect (.symbol .rightParen) "Expected ')'." = (.error cause, moved)) :
      Executes (.rule .primary) parser (.error cause) moved
  | group {token closing : Token} {parser middle moved : Parser} {expr : Expr}
      (here : parser.current = .ok token) (opens : token.kind = .symbol .leftParen)
      (inner : Executes (.rule .expression) parser.advance.2 (.ok expr) middle)
      (closes : middle.expect (.symbol .rightParen) "Expected ')'." = (.ok closing, moved)) :
      Executes (.rule .primary) parser (.ok (.grouping expr)) moved
  | noOperand {token : Token} {parser : Parser} (here : parser.current = .ok token)
      (literal : ∀ value, ¬ Atom token value) (paren : token.kind ≠ .symbol .leftParen) :
      Executes (.rule .primary) parser (.error (.unexpected token "Expected a literal or '('.")) parser

/-- The cursor further on. -/
def skip (parser : Parser) (count : Nat) : Parser := { parser with position := parser.position + count }

theorem mem_levelKinds_iff {level : Level} {kind : Kind} : kind ∈ levelKinds level ↔ ∃ op, Operator level kind op := by
  constructor
  · intro member
    cases level with
    | equality | term | factor =>
      simp only [levelKinds, List.mem_cons, List.not_mem_nil, or_false] at member
      rcases member with rfl | rfl <;> exact ⟨_, by constructor⟩
    | comparison =>
      simp only [levelKinds, List.mem_cons, List.not_mem_nil, or_false] at member
      rcases member with rfl | rfl | rfl | rfl <;> exact ⟨_, by constructor⟩
  · rintro ⟨op, symbol⟩
    cases symbol <;> decide

theorem mem_signKinds_iff {kind : Kind} : kind ∈ signKinds ↔ ∃ op, Sign kind op := by
  constructor
  · intro member
    simp only [signKinds, List.mem_cons, List.not_mem_nil, or_false] at member
    rcases member with rfl | rfl <;> exact ⟨_, by constructor⟩
  · rintro ⟨op, symbol⟩
    cases symbol <;> decide

theorem eof_not_mem_levelKinds (level : Level) : .eof ∉ levelKinds level := by
  cases level <;> decide

theorem eof_not_mem_signKinds : .eof ∉ signKinds := by decide

theorem Atom.kind_ne_eof {token : Token} {value : Value} (literal : Atom token value) : token.kind ≠ .eof := by
  intro ending
  cases literal with
  | number kind | string kind | true kind | false kind | nil kind => cases ending.symm.trans kind

section
variable {parser moved : Parser} {token next : Token} {read rest tail : List Token} {kinds : List Kind}

theorem skip_append (parser : Parser) (first second : List Token) :
    skip (skip parser first.length) second.length = skip parser (first ++ second).length := by
  simp only [skip, List.length_append, Nat.add_assoc]

theorem skip_cons (parser : Parser) (token : Token) (later : List Token) :
    skip (skip parser 1) later.length = skip parser (token :: later).length :=
  skip_append parser [token] later

theorem ahead_skip (ahead : parser.ahead = read ++ rest) : (skip parser read.length).ahead = rest := by
  have here : parser.tokens.drop parser.position = read ++ rest := ahead
  change parser.tokens.drop (parser.position + read.length) = rest
  rw [← List.drop_drop, here, List.drop_left]

theorem ahead_skip_one (ahead : parser.ahead = token :: rest) : (skip parser 1).ahead = rest :=
  @ahead_skip parser [token] rest ahead

theorem current_of_ahead (ahead : parser.ahead = token :: rest) : parser.current = .ok token :=
  current_eq (drop_eq_cons ahead).1

theorem current_of_nil (ahead : parser.ahead = []) : parser.current = .error .outOfTokens := by
  have beyond : parser.tokens[parser.position]? = none := List.getElem?_eq_none (List.drop_eq_nil_iff.mp ahead)
  rw [Parser.current, beyond]

theorem advance_of_ahead (ahead : parser.ahead = token :: rest) (other : token.kind ≠ .eof) :
    parser.advance = (.ok token, skip parser 1) := by
  rw [Parser.advance, current_of_ahead ahead]
  simp only [other, if_false, skip]

theorem accept_of_mem (ahead : parser.ahead = token :: rest) (member : token.kind ∈ kinds) (closed : .eof ∉ kinds) :
    parser.accept kinds = (.ok (some token), skip parser 1) := by
  have other : token.kind ≠ .eof := fun ending => closed (ending ▸ member)
  rw [Parser.accept, current_of_ahead ahead]
  simp only [member, if_true, advance_of_ahead ahead other]
  rfl

theorem accept_of_not_mem (ahead : parser.ahead = token :: rest) (missing : token.kind ∉ kinds) :
    parser.accept kinds = (.ok none, parser) := by
  rw [Parser.accept, current_of_ahead ahead]
  simp only [missing, if_false]

theorem expect_of_eq {kind : Kind} (ahead : parser.ahead = token :: rest) (same : token.kind = kind)
    (other : kind ≠ .eof) (message : String) : parser.expect kind message = (.ok token, skip parser 1) := by
  rw [Parser.expect, current_of_ahead ahead]
  simp only [same, if_true]
  exact advance_of_ahead ahead (same ▸ other)

theorem expect_of_ne {kind : Kind} (ahead : parser.ahead = token :: rest) (different : token.kind ≠ kind)
    (message : String) : parser.expect kind message = (.error (.unexpected token message), parser) := by
  rw [Parser.expect, current_of_ahead ahead]
  simp only [different, if_false]

end

theorem Executes.after_opening {task : Task} {parser moved : Parser} {opening : Token} {rest : List Token}
    {result : Except ParseFault Expr} (executes : Executes task (skip parser 1) result moved)
    (ahead : parser.ahead = opening :: rest) (opens : opening.kind = .symbol .leftParen) :
    Executes task parser.advance.2 result moved := by
  have other : opening.kind ≠ .eof := by
    rw [opens]
    exact nofun
  rwa [advance_of_ahead ahead other]

/-- Whatever the parser reads, a cursor reads by its own steps. -/
theorem Reads.executes {task : Task} {read : List Token} {next : Token} {result : Except ParseFault Expr}
    (reads : Reads task read next result) {parser : Parser} {tail : List Token}
    (ahead : parser.ahead = read ++ next :: tail) : Executes task parser result (skip parser read.length) := by
  induction reads generalizing parser tail with
  | expression _ ih => exact .expression (ih ahead)
  | operandFault _ ih => exact .operandFault (ih ahead)
  | @operand level before read next left result _ _ ihFirst ihLater =>
    rw [List.append_assoc] at ahead
    obtain ⟨later, split⟩ := append_cons_eq read next tail
    have first := ihFirst (ahead.trans (congrArg (before ++ ·) split))
    rw [← skip_append]
    exact .operand first (ihLater (ahead_skip ahead))
  | @signFault token op read next cause sign _ ih =>
    have member := mem_signKinds_iff.mpr ⟨op, sign_iff.mpr sign⟩
    have found := accept_of_mem ahead member eof_not_mem_signKinds
    rw [← skip_cons]
    exact .signFault found (ih (ahead_skip_one ahead))
  | @sign token op read next expr sign _ ih =>
    have symbol := sign_iff.mpr sign
    have found := accept_of_mem ahead (mem_signKinds_iff.mpr ⟨op, symbol⟩) eof_not_mem_signKinds
    rw [← skip_cons]
    exact .sign found symbol (ih (ahead_skip_one ahead))
  | @unsigned read next result plain _ ih =>
    obtain ⟨later, split⟩ := append_cons_eq read next tail
    have missing : (read.headD next).kind ∉ signKinds := by
      intro member
      obtain ⟨op, symbol⟩ := mem_signKinds_iff.mp member
      cases plain.symm.trans (sign_iff.mp symbol)
    exact .unsigned (accept_of_not_mem (ahead.trans split) missing) (ih ahead)
  | atom operand =>
    have literal := atom_iff.mpr operand
    have reads := Executes.atom (current_of_ahead ahead) literal
    rwa [advance_of_ahead ahead literal.kind_ne_eof] at reads
  | @groupFault opening read next cause opens _ ih =>
    have inner := (ih (ahead_skip_one ahead)).after_opening ahead opens
    rw [← skip_cons]
    exact .groupFault (current_of_ahead ahead) opens inner
  | @unclosed opening next read expr opens _ missing ih =>
    have inside := ahead_skip_one ahead
    have inner := (ih inside).after_opening ahead opens
    rw [← skip_cons]
    exact .unclosed (current_of_ahead ahead) opens inner (expect_of_ne (ahead_skip inside) missing _)
  | @group opening closing read next expr opens _ closes ih =>
    have inside : (skip parser 1).ahead = read ++ closing :: next :: tail := by
      simpa using ahead_skip_one ahead
    have inner := (ih inside).after_opening ahead opens
    rw [List.cons_append, ← skip_cons, ← skip_append]
    exact .group (current_of_ahead ahead) opens inner (expect_of_eq (ahead_skip inside) closes nofun _)
  | noOperand literal paren =>
    refine .noOperand (current_of_ahead ahead) (fun value found => ?_) paren
    cases literal.symm.trans (atom_iff.mp found)
  | @stop level left next other =>
    refine .stop (accept_of_not_mem ahead fun member => ?_)
    obtain ⟨op, symbol⟩ := mem_levelKinds_iff.mp member
    obtain ⟨found, same⟩ := operator_iff.mp symbol
    exact other op found same
  | @moreFault token op left read next cause found _ ih =>
    have symbol := operator_iff.mpr ⟨found, rfl⟩
    have taken := accept_of_mem ahead (mem_levelKinds_iff.mpr ⟨op, symbol⟩) (eof_not_mem_levelKinds _)
    rw [← skip_cons]
    exact .moreFault taken (ih (ahead_skip_one ahead))
  | @more token op left right before read next result found _ _ ihFirst ihLater =>
    have symbol := operator_iff.mpr ⟨found, rfl⟩
    rw [List.append_assoc] at ahead
    have taken := accept_of_mem ahead (mem_levelKinds_iff.mpr ⟨op, symbol⟩) (eof_not_mem_levelKinds _)
    have inside := ahead_skip_one ahead
    obtain ⟨later, split⟩ := append_cons_eq read next tail
    have first := ihFirst (inside.trans (congrArg (before ++ ·) split))
    rw [List.cons_append, ← skip_cons, ← skip_append]
    exact .more taken symbol first (ihLater (ahead_skip inside))

/-- `Passes parser moved`: the cursor has gone on over some of the tokens ahead. -/
def Passes (parser moved : Parser) : Prop :=
  ∃ read, moved = skip parser read.length ∧ parser.ahead = read ++ moved.ahead

section
variable {parser middle moved : Parser} {token : Token} {rest : List Token} {kinds : List Kind} {cause : ParseFault}

theorem Passes.refl (parser : Parser) : Passes parser parser := ⟨[], rfl, rfl⟩

theorem Passes.trans (first : Passes parser middle) (second : Passes middle moved) : Passes parser moved := by
  obtain ⟨read, rfl, ahead⟩ := first
  obtain ⟨later, rfl, further⟩ := second
  refine ⟨read ++ later, skip_append parser read later, ?_⟩
  rw [ahead, further, List.append_assoc]

theorem Passes.one (ahead : parser.ahead = token :: rest) : Passes parser (skip parser 1) :=
  ⟨[token], rfl, by rw [ahead_skip_one ahead, ahead]; rfl⟩

/-- All that can come of looking for some kinds of token. -/
inductive Accepts (parser : Parser) (kinds : List Kind) : Except ParseFault (Option Token) × Parser → Prop where
  | lost (nothing : parser.ahead = []) : Accepts parser kinds (.error .outOfTokens, parser)
  | other {token : Token} {rest : List Token} (ahead : parser.ahead = token :: rest) (missing : token.kind ∉ kinds) :
      Accepts parser kinds (.ok none, parser)
  | taken {token : Token} {rest : List Token} (ahead : parser.ahead = token :: rest) (member : token.kind ∈ kinds) :
      Accepts parser kinds (.ok (some token), skip parser 1)

/-- All that can come of a token that must be there. -/
inductive Expects (parser : Parser) (kind : Kind) (message : String) : Except ParseFault Token × Parser → Prop where
  | lost (nothing : parser.ahead = []) : Expects parser kind message (.error .outOfTokens, parser)
  | other {token : Token} {rest : List Token} (ahead : parser.ahead = token :: rest) (different : token.kind ≠ kind) :
      Expects parser kind message (.error (.unexpected token message), parser)
  | taken {token : Token} {rest : List Token} (ahead : parser.ahead = token :: rest) (same : token.kind = kind) :
      Expects parser kind message (.ok token, skip parser 1)

theorem accept_accepts (parser : Parser) (closed : .eof ∉ kinds) : Accepts parser kinds (parser.accept kinds) := by
  cases ahead : parser.ahead with
  | nil =>
    rw [Parser.accept, current_of_nil ahead]
    exact .lost ahead
  | cons token rest =>
    by_cases member : token.kind ∈ kinds
    · rw [accept_of_mem ahead member closed]
      exact .taken ahead member
    · rw [accept_of_not_mem ahead member]
      exact .other ahead member

theorem expect_expects (parser : Parser) {kind : Kind} (other : kind ≠ .eof) (message : String) :
    Expects parser kind message (parser.expect kind message) := by
  cases ahead : parser.ahead with
  | nil =>
    rw [Parser.expect, current_of_nil ahead]
    exact .lost ahead
  | cons token rest =>
    by_cases same : token.kind = kind
    · rw [expect_of_eq ahead same other]
      exact .taken ahead same
    · rw [expect_of_ne ahead same]
      exact .other ahead same

theorem ahead_of_current (here : parser.current = .ok token) : ∃ rest, parser.ahead = token :: rest := by
  cases ahead : parser.ahead with
  | nil => cases (current_of_nil ahead).symm.trans here
  | cons first rest =>
    cases (current_of_ahead ahead).symm.trans here
    exact ⟨rest, rfl⟩

theorem nil_of_current (lost : parser.current = .error cause) : parser.ahead = [] ∧ cause = .outOfTokens := by
  cases ahead : parser.ahead with
  | nil =>
    cases (current_of_nil ahead).symm.trans lost
    exact ⟨rfl, rfl⟩
  | cons first rest => cases (current_of_ahead ahead).symm.trans lost

end

theorem run_expression (tokens : List Token) :
    Task.run (.rule .expression) tokens = Task.run (.rule (.binary .equality)) tokens := by
  simp only [Task.run]
  rw [parse]

theorem run_unsigned {token : Token} (rest : List Token) (plain : token.kind.unaryOp? = none) :
    Task.run (.rule .unary) (token :: rest) = Task.run (.rule .primary) (token :: rest) := by
  simp only [Task.run]
  rw [parse, plain]

theorem run_atom {token : Token} {value : Value} (rest : List Token) (literal : token.operand? = some value) :
    Task.run (.rule .primary) (token :: rest) = (.ok (.literal value), rest) := by
  simp only [Task.run]
  rw [parse, literal]
  rfl

theorem run_noOperand {token : Token} (rest : List Token) (literal : token.operand? = none)
    (paren : token.kind ≠ .symbol .leftParen) :
    Task.run (.rule .primary) (token :: rest) = (.error (.expectedOperand token), token :: rest) := by
  simp only [Task.run]
  rw [parse, literal]
  simp only [paren, if_false, outcome]

theorem run_nil (task : Task) : task.run [] = (.error .outOfTokens, []) := by
  match task with
  | .rule .expression => rw [run_expression, run_nil]
  | .rule (.binary level) =>
    have tighter := Rule.rank_operand_lt level
    rw [run_binary, run_nil]
  | .rule .unary | .rule .primary =>
    simp only [Task.run]
    rw [parse]
    rfl
  | .more level left =>
    simp only [Task.run]
    rw [parseMore]
    rfl
termination_by task.work []
decreasing_by
  all_goals
    simp only [Task.work, Rule.rank] at *
    omega

section
variable {parser stepped moved : Parser} {token : Token} {level : Level} {left : Expr} {cause : ParseFault}

theorem accept_taken {kinds : List Kind} (closed : .eof ∉ kinds)
    (found : parser.accept kinds = (.ok (some token), stepped)) :
    token.kind ∈ kinds ∧ Passes parser stepped ∧ parser.ahead = token :: stepped.ahead := by
  have step := accept_accepts parser closed
  rw [found] at step
  cases step with
  | taken ahead member => exact ⟨member, .one ahead, by rw [ahead_skip_one ahead, ahead]⟩

theorem accept_lost {kinds : List Kind} (closed : .eof ∉ kinds) (lost : parser.accept kinds = (.error cause, moved))
    (task : Task) : Passes parser moved ∧ task.run parser.ahead = (.error cause, moved.ahead) := by
  have step := accept_accepts parser closed
  rw [lost] at step
  cases step with
  | lost nothing => exact ⟨.refl parser, nothing ▸ run_nil task⟩

theorem more_stopped (none : parser.accept (levelKinds level) = (.ok none, moved)) :
    Passes parser moved ∧ Task.run (.more level left) parser.ahead = (.ok left, moved.ahead) := by
  have step := accept_accepts parser (eof_not_mem_levelKinds level)
  rw [none] at step
  cases step with
  | other ahead missing =>
    refine ⟨.refl parser, ?_⟩
    rw [ahead]
    refine run_stop left _ fun op found same => missing ?_
    exact mem_levelKinds_iff.mpr ⟨op, operator_iff.mpr ⟨found, same⟩⟩

theorem more_taken {op : BinaryOp} (found : parser.accept (levelKinds level) = (.ok (some token), stepped))
    (symbol : Operator level token.kind op) :
    Passes parser stepped ∧ Task.run (.more level left) parser.ahead =
      match Task.run (.rule level.operand) stepped.ahead with
      | (.ok right, rest) => Task.run (.more level (.binary op left right token.line)) rest
      | (.error cause, rest) => (.error cause, rest) := by
  obtain ⟨-, passes, ahead⟩ := accept_taken (eof_not_mem_levelKinds level) found
  obtain ⟨same, rfl⟩ := operator_iff.mp symbol
  exact ⟨passes, ahead ▸ run_more left stepped.ahead same⟩

theorem unary_unsigned (none : parser.accept signKinds = (.ok none, stepped)) :
    Passes parser stepped ∧ Task.run (.rule .unary) parser.ahead = Task.run (.rule .primary) stepped.ahead := by
  have step := accept_accepts parser eof_not_mem_signKinds
  rw [none] at step
  cases step with
  | @other token _ ahead missing =>
    have plain : token.kind.unaryOp? = Option.none := by
      by_contra signed
      obtain ⟨op, sign⟩ := Option.ne_none_iff_exists'.mp signed
      exact missing (mem_signKinds_iff.mpr ⟨op, sign_iff.mpr sign⟩)
    exact ⟨.refl parser, ahead ▸ run_unsigned _ plain⟩

theorem sign_taken {op : UnaryOp} (found : parser.accept signKinds = (.ok (some token), stepped))
    (symbol : Sign token.kind op) :
    Passes parser stepped ∧ Task.run (.rule .unary) parser.ahead = match Task.run (.rule .unary) stepped.ahead with
      | (.ok operand, rest) => (.ok (.unary op operand token.line), rest)
      | (.error cause, rest) => (.error cause, rest) := by
  obtain ⟨-, passes, ahead⟩ := accept_taken eof_not_mem_signKinds found
  exact ⟨passes, ahead ▸ run_sign stepped.ahead (sign_iff.mp symbol)⟩

theorem group_opened (here : parser.current = .ok token) (opens : token.kind = .symbol .leftParen) :
    Passes parser parser.advance.2 ∧
      Task.run (.rule .primary) parser.ahead = match Task.run (.rule .expression) parser.advance.2.ahead with
      | (.error cause, rest) => (.error cause, rest)
      | (.ok _, []) => (.error .outOfTokens, [])
      | (.ok inner, closing :: after) =>
        if closing.kind = .symbol .rightParen then (.ok (.grouping inner), after)
        else (.error (.expectedClosing closing), closing :: after) := by
  obtain ⟨rest, ahead⟩ := ahead_of_current here
  have other : token.kind ≠ .eof := by
    rw [opens]
    exact nofun
  rw [advance_of_ahead ahead other, ahead_skip_one ahead]
  exact ⟨.one ahead, ahead ▸ run_group rest opens⟩

end

/-- A cursor reads by its own steps what the parser reads, and nothing else. -/
theorem Executes.passes {task : Task} {parser moved : Parser} {result : Except ParseFault Expr}
    (executes : Executes task parser result moved) :
    Passes parser moved ∧ task.run parser.ahead = (result, moved.ahead) := by
  induction executes with
  | expression _ ih => exact ⟨ih.1, (run_expression _).trans ih.2⟩
  | operandFault _ ih =>
    refine ⟨ih.1, ?_⟩
    rw [run_binary, ih.2]
  | operand _ _ ihFirst ihLater =>
    refine ⟨ihFirst.1.trans ihLater.1, ?_⟩
    rw [run_binary, ihFirst.2]
    exact ihLater.2
  | moreLost lost => exact accept_lost (eof_not_mem_levelKinds _) lost _
  | stop none => exact more_stopped none
  | moreFault found _ ih =>
    obtain ⟨op, symbol⟩ := mem_levelKinds_iff.mp (accept_taken (eof_not_mem_levelKinds _) found).1
    obtain ⟨passes, run⟩ := more_taken found symbol
    refine ⟨passes.trans ih.1, ?_⟩
    rw [run, ih.2]
  | more found symbol _ _ ihFirst ihLater =>
    obtain ⟨passes, run⟩ := more_taken found symbol
    refine ⟨(passes.trans ihFirst.1).trans ihLater.1, ?_⟩
    rw [run, ihFirst.2]
    exact ihLater.2
  | unaryLost lost => exact accept_lost eof_not_mem_signKinds lost _
  | unsigned none _ ih =>
    obtain ⟨passes, run⟩ := unary_unsigned none
    exact ⟨passes.trans ih.1, run.trans ih.2⟩
  | signFault found _ ih =>
    obtain ⟨op, symbol⟩ := mem_signKinds_iff.mp (accept_taken eof_not_mem_signKinds found).1
    obtain ⟨passes, run⟩ := sign_taken found symbol
    refine ⟨passes.trans ih.1, ?_⟩
    rw [run, ih.2]
  | sign found symbol _ ih =>
    obtain ⟨passes, run⟩ := sign_taken found symbol
    refine ⟨passes.trans ih.1, ?_⟩
    rw [run, ih.2]
  | @primaryLost parser _ lost =>
    obtain ⟨nothing, rfl⟩ := nil_of_current lost
    exact ⟨.refl parser, nothing ▸ run_nil _⟩
  | atom here literal =>
    obtain ⟨rest, ahead⟩ := ahead_of_current here
    rw [advance_of_ahead ahead literal.kind_ne_eof]
    refine ⟨.one ahead, ?_⟩
    rw [ahead, ahead_skip_one ahead]
    exact run_atom rest (atom_iff.mp literal)
  | groupFault here opens _ ih =>
    obtain ⟨passes, run⟩ := group_opened here opens
    refine ⟨passes.trans ih.1, ?_⟩
    rw [run, ih.2]
  | @unclosed _ _ middle _ _ _ here opens _ missing ih =>
    obtain ⟨passes, run⟩ := group_opened here opens
    have step := expect_expects middle (show Kind.symbol .rightParen ≠ .eof by decide) "Expected ')'."
    rw [missing] at step
    rw [run, ih.2]
    cases step with
    | lost nothing =>
      refine ⟨passes.trans ih.1, ?_⟩
      rw [nothing]
    | other ahead different =>
      refine ⟨passes.trans ih.1, ?_⟩
      rw [ahead]
      exact if_neg different
  | @group _ _ _ middle _ _ here opens _ closes ih =>
    obtain ⟨passes, run⟩ := group_opened here opens
    have step := expect_expects middle (show Kind.symbol .rightParen ≠ .eof by decide) "Expected ')'."
    rw [closes] at step
    rw [run, ih.2]
    cases step with
    | taken ahead same =>
      refine ⟨(passes.trans ih.1).trans (.one ahead), ?_⟩
      rw [ahead, ahead_skip_one ahead]
      exact if_pos same
  | @noOperand token parser here literal paren =>
    obtain ⟨rest, ahead⟩ := ahead_of_current here
    have plain : token.operand? = Option.none := by
      by_contra found
      obtain ⟨value, same⟩ := Option.ne_none_iff_exists'.mp found
      exact literal value (atom_iff.mpr same)
    exact ⟨.refl parser, ahead ▸ run_noOperand rest plain paren⟩

theorem run_eq_skip {parser : Parser} {rule : Rule} {read rest : List Token} {result : Except ParseFault Expr}
    (some : rest ≠ []) (ahead : parser.ahead = read ++ rest)
    (reads : Task.run (.rule rule) parser.ahead = (result, rest)) :
    parser.run rule = (result, skip parser read.length) := by
  have place : parser.tokens.length - rest.length = parser.position + read.length := by
    have size := congrArg List.length ahead
    have positive := List.length_pos_iff.mpr some
    simp only [Parser.ahead, List.length_drop, List.length_append] at size
    omega
  have same : outcome (parse rule parser.ahead) = (result, rest) := reads
  unfold Parser.run
  split
  all_goals
    rename_i found
    obtain ⟨rfl, rfl⟩ := Prod.mk.inj ((congrArg outcome found).symm.trans same)
    rw [place]
    rfl

/-- What a rule does from a cursor with an end of input ahead. -/
theorem run_reads {parser : Parser} (ended : HasEnd parser.ahead) (rule : Rule) :
    ∃ read next tail result, parser.ahead = read ++ next :: tail ∧ NoEnd read ∧ Reads (.rule rule) read next result ∧
      parser.run rule = (result, skip parser read.length) := by
  obtain ⟨read, next, tail, result, ahead, reads, taken⟩ := exists_reads (.rule rule) parser.ahead ended
  refine ⟨read, next, tail, result, ahead, taken, reads, ?_⟩
  exact run_eq_skip (List.cons_ne_nil next tail) ahead (ahead ▸ reads.run tail)

/-- The executions of a rule are the one that the parser tells, and it ends. -/
theorem executes_iff {parser moved : Parser} {rule : Rule} {result : Except ParseFault Expr}
    (ended : HasEnd parser.ahead) :
    Executes (.rule rule) parser result moved ↔ parser.run rule = (result, moved) := by
  obtain ⟨read, next, tail, found, ahead, -, reads, run⟩ := run_reads ended rule
  constructor
  · intro executes
    obtain ⟨⟨passed, same, split⟩, gives⟩ := executes.passes
    have stops : moved.ahead = next :: tail := by
      rw [ahead, reads.run tail] at gives
      exact (Prod.mk.inj gives).2.symm
    rw [run_eq_skip (stops ▸ List.cons_ne_nil next tail) split gives, ← same]
  · intro gives
    obtain ⟨rfl, rfl⟩ := Prod.mk.inj (run.symm.trans gives)
    exact reads.executes ahead

end Lox.Proofs
