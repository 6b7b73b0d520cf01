import Lox.Proofs.ParserSound

/-! The parser reads exactly what the grammar derives. A rule stops only at a token that
cannot carry its phrase on, and there it has found the one derivation of what it took;
conversely a phrase followed by such a token is always found, though no choice is ever taken
back. -/

namespace Lox.Proofs

/-- The token after a phrase of the rule that cannot continue it: no binary operator, or one
of a level looser than the rule. -/
def Closes (rule : Rule) (next : Token) : Prop :=
  ∀ op, next.kind.binaryOp? = some op → rule.rank < (Rule.binary op.level).rank

theorem closes_unary (next : Token) : Closes .unary next :=
  fun op _ => rank_unary_lt op.level

theorem closes_primary (next : Token) : Closes .primary next :=
  fun op _ => Nat.lt_trans (by decide) (rank_unary_lt op.level)

theorem Closes.tighten {rule inner : Rule} {next : Token} (closed : Closes rule next)
    (within : inner.rank ≤ rule.rank) : Closes inner next :=
  fun op found => Nat.lt_of_le_of_lt within (closed op found)

theorem closes_operand {token : Token} {op : BinaryOp} (found : token.kind.binaryOp? = some op) :
    Closes op.level.operand token := by
  intro other same
  obtain rfl : op = other := Option.some.inj (found.symm.trans same)
  exact Rule.rank_operand_lt op.level

theorem Closes.binary {level : Level} {next : Token} (closed : Closes level.operand next)
    (other : ∀ op, next.kind.binaryOp? = some op → op.level ≠ level) :
    Closes (.binary level) next := by
  intro op found
  have looser := closed op found
  have room := rank_operand level
  have different : (Rule.binary op.level).rank ≠ (Rule.binary level).rank :=
    fun same => other op found (Rule.binary.inj (rank_injective same))
  omega

theorem Closes.other {level : Level} {next : Token} (closed : Closes (.binary level) next) :
    ∀ op, next.kind.binaryOp? = some op → op.level ≠ level := by
  rintro op found rfl
  exact Nat.lt_irrefl _ (closed op found)

/-- What a finished task says of the token it stopped at. -/
def Task.Closed : Task → List Token → Token → Prop
  | .rule goal, _, next => Closes goal next
  | .more level _, read, next => Closes level.operand (read.headD next) → Closes (.binary level) next

/-- A tree is given only where nothing goes on. -/
theorem Reads.closed {task : Task} {read : List Token} {next : Token}
    {result : Except ParseFault Expr} (reads : Reads task read next result) :
    ∀ expr, result = .ok expr → task.Closed read next := by
  induction reads with
  | expression _ ih =>
    intro expr same op found
    have looser := ih expr same op found
    have bound : (Rule.binary op.level).rank ≤ (Rule.binary .equality).rank := by
      cases op.level <;> decide
    omega
  | @operand level ahead read next left result _ _ ihFirst ihLater =>
    intro expr same
    exact ihLater expr same (ihFirst left rfl)
  | sign _ _ _ | unsigned _ _ _ =>
    intro expr same
    exact closes_unary _
  | atom _ | group _ _ _ _ =>
    intro expr same
    exact closes_primary _
  | stop other =>
    intro expr same closed
    exact closed.binary other
  | @more token op left right ahead read next result found _ _ ihFirst ihLater =>
    intro expr same _
    exact ihLater expr same (ihFirst right rfl)
  | operandFault _ _ | signFault _ _ _ | groupFault _ _ _ | unclosed _ _ _ _ | noOperand _ _
  | moreFault _ _ _ =>
    intro expr same
    cases same

/-- What a derivation makes the parser do. A phrase of a binary level may be the left operand
of more, so its trace is open to any further reading of that level. -/
structure Found (rule : Rule) (tokens : List Token) (expr : Expr) : Prop where
  closed : ∀ next, Closes rule next → Reads (.rule rule) tokens next (.ok expr)
  continued : ∀ level, rule = .binary level → ∀ read next result,
    Closes level.operand (read.headD next) → Reads (.more level expr) read next result →
    Reads (.rule rule) (tokens ++ read) next result

theorem Found.of_continued {level : Level} {tokens : List Token} {expr : Expr}
    (continued : ∀ read next result, Closes level.operand (read.headD next) →
      Reads (.more level expr) read next result →
      Reads (.rule (.binary level)) (tokens ++ read) next result) :
    Found (.binary level) tokens expr := by
  constructor
  · intro next closed
    have within : level.operand.rank ≤ (Rule.binary level).rank := by
      have room := rank_operand level
      omega
    have reads := continued [] next _ (closed.tighten within) (.stop closed.other)
    simpa using reads
  · intro level' same
    cases same
    exact continued

theorem Found.of_closed {rule : Rule} {tokens : List Token} {expr : Expr}
    (single : ∀ level, rule ≠ .binary level)
    (closed : ∀ next, Closes rule next → Reads (.rule rule) tokens next (.ok expr)) :
    Found rule tokens expr :=
  ⟨closed, fun level same => absurd same (single level)⟩

theorem unsigned_of_primary {tokens : List Token} {expr : Expr} (phrase : Derives .primary tokens expr)
    (next : Token) : (tokens.headD next).kind.unaryOp? = none := by
  cases phrase with
  | pass tighter _ => cases tighter
  | atom operand => cases operand <;> simp [Kind.unaryOp?, *]
  | group opens _ _ => simp [Kind.unaryOp?, opens]

/-- Reading is complete: every derivation is found. -/
theorem Derives.found {rule : Rule} {tokens : List Token} {expr : Expr}
    (phrase : Derives rule tokens expr) : Found rule tokens expr := by
  induction phrase with
  | @pass rule inner tokens expr tighter phrase ih =>
    match rule with
    | .expression =>
      cases tighter
      refine .of_closed (by intro _ same; cases same) fun next closed => .expression ?_
      exact ih.closed next (closed.tighten (by decide))
    | .binary level =>
      obtain rfl := tighter_binary_iff.mp tighter
      exact .of_continued fun read next result closed later => .operand (ih.closed _ closed) later
    | .unary =>
      cases tighter
      refine .of_closed (by intro _ same; cases same) fun next _ => ?_
      exact .unsigned (unsigned_of_primary phrase next) (ih.closed next (closes_primary next))
    | .primary => cases tighter
  | @operator level inner before after first second token op left symbol tighter right ihLeft ihRight =>
    obtain rfl := tighter_binary_iff.mp tighter
    obtain ⟨found, rfl⟩ := operator_iff.mp symbol
    refine .of_continued fun read next result closed later => ?_
    have more := Reads.more found (ihRight.closed _ closed) later
    simpa using ihLeft.continued _ rfl (token :: after ++ read) next result (closes_operand found) more
  | sign symbol _ ih =>
    refine .of_closed (by intro _ same; cases same) fun next closed => ?_
    exact .sign (sign_iff.mp symbol) (ih.closed next closed)
  | atom operand =>
    refine .of_closed (by intro _ same; cases same) fun next _ => ?_
    exact .atom (atom_iff.mp operand)
  | @group opening closing tokens expr opens _ closes ih =>
    refine .of_closed (by intro _ same; cases same) fun next _ => ?_
    refine .group opens (ih.closed closing fun op found => ?_) closes
    simp [closes, Kind.binaryOp?] at found

def binaryKinds : List Kind :=
  [.symbol .bangEqual, .symbol .equalEqual, .symbol .greater, .symbol .greaterEqual, .symbol .less,
    .symbol .lessEqual, .symbol .minus, .symbol .plus, .symbol .slash, .symbol .star]

theorem mem_binaryKinds_iff {kind : Kind} :
    kind ∈ binaryKinds ↔ ∃ op, kind.binaryOp? = some op := by
  constructor
  · simp only [binaryKinds, List.mem_cons, List.not_mem_nil, or_false]
    rintro (rfl | rfl | rfl | rfl | rfl | rfl | rfl | rfl | rfl | rfl) <;> exact ⟨_, rfl⟩
  · rintro ⟨op, found⟩
    obtain ⟨level, symbol⟩ : ∃ level, Operator level kind op := ⟨_, operator_iff.mpr ⟨found, rfl⟩⟩
    cases symbol <;> decide

theorem closes_expression_iff {next : Token} : Closes .expression next ↔ next.kind ∉ binaryKinds := by
  rw [mem_binaryKinds_iff]
  constructor
  · rintro closed ⟨op, found⟩
    have beyond := closed op found
    have bound := Rule.rank_lt (.binary op.level)
    simp only [Rule.rank] at beyond bound
    omega
  · intro none op found
    exact absurd ⟨op, found⟩ none

/-- Tokens whose last one, and no other, is the end of input. -/
def Ended (tokens : List Token) : Prop :=
  ∃ body last, tokens = body ++ [last] ∧ NoEnd body ∧ last.kind = .eof

theorem Ended.hasEnd {tokens : List Token} (ended : Ended tokens) : HasEnd tokens := by
  obtain ⟨body, last, rfl, _, kind⟩ := ended
  exact ⟨last, by simp, kind⟩

theorem Reads.parser_run {rule : Rule} {read : List Token} {next : Token}
    {result : Except ParseFault Expr} (reads : Reads (.rule rule) read next result)
    (tail : List Token) :
    Parser.run { tokens := read ++ next :: tail } rule =
      (result, { tokens := read ++ next :: tail, position := read.length }) := by
  have same : outcome (parse rule (read ++ next :: tail)) = (result, next :: tail) := reads.run tail
  unfold Parser.run
  split
  all_goals
    rename_i found
    obtain ⟨rfl, rfl⟩ := Prod.mk.inj ((congrArg outcome found).symm.trans same)
    simp

theorem Reads.attempt_tree {read : List Token} {next : Token} {expr : Expr}
    (reads : Reads (.rule .expression) read next (.ok expr)) (tail : List Token)
    (reporter : Reporter) :
    Parser.attempt { tokens := read ++ next :: tail } reporter =
      (.ok (some expr), { tokens := read ++ next :: tail, position := read.length }, reporter) := by
  rw [Parser.attempt, reads.parser_run tail]

theorem Reads.attempt_fault {read : List Token} {next found : Token} {message : String}
    (reads : Reads (.rule .expression) read next (.error (.unexpected found message)))
    (tail : List Token) (reporter : Reporter) :
    Parser.attempt { tokens := read ++ next :: tail } reporter =
      (.ok none, { tokens := read ++ next :: tail, position := read.length },
        reporter.record (found.problem message)) := by
  rw [Parser.attempt, reads.parser_run tail]

theorem take_cons_drop {tokens : List Token} {position : Nat} {next : Token}
    (here : tokens[position]? = some next) :
    tokens = tokens.take position ++ next :: tokens.drop (position + 1) ∧
      (tokens.take position).length = position := by
  obtain ⟨inside, rfl⟩ := List.getElem?_eq_some_iff.mp here
  refine ⟨?_, by simp; omega⟩
  rw [← List.drop_eq_getElem_cons inside, List.take_append_drop]

theorem Derives.attempt_tree {tokens : List Token} {expr : Expr} {position : Nat} {next : Token}
    (phrase : Derives .expression (tokens.take position) expr)
    (here : tokens[position]? = some next) (closed : next.kind ∉ binaryKinds) (reporter : Reporter) :
    Parser.attempt { tokens } reporter = (.ok (some expr), { tokens, position }, reporter) := by
  obtain ⟨split, size⟩ := take_cons_drop here
  have reads := phrase.found.closed next (closes_expression_iff.mpr closed)
  have attempted := reads.attempt_tree (tokens.drop (position + 1)) reporter
  rwa [size, ← split] at attempted

/-- The grammar is unambiguous. -/
theorem Derives.unique {tokens : List Token} {expr other : Expr}
    (phrase : Derives .expression tokens expr) (again : Derives .expression tokens other) :
    expr = other := by
  have closed : Closes .expression (.eof 0) := closes_expression_iff.mpr (by decide)
  have same := (phrase.found.closed _ closed).run []
  rw [(again.found.closed _ closed).run []] at same
  exact (Except.ok.inj (Prod.mk.inj same).1).symm

/-- On tokens that end in their only end of input, parsing gives a tree and stops at a
position exactly when the grammar derives the tokens before it with that tree and no binary
operator stands there. There is at most one such tree and position, and no tokens have two
derivations. -/
theorem attempt_tree_iff_derives (tokens : List Token) (ended : Ended tokens) (reporter : Reporter) :
    (∀ (expr : Expr) (position : Nat),
      ((Parser.attempt { tokens } reporter).1 = .ok (some expr) ∧
        (Parser.attempt { tokens } reporter).2.1.position = position) ↔
      (Derives .expression (tokens.take position) expr ∧
        ∃ next, tokens[position]? = some next ∧ next.kind ∉ binaryKinds)) ∧
    (∀ (expr other : Expr) (position position' : Nat) (next next' : Token),
      Derives .expression (tokens.take position) expr →
      tokens[position]? = some next → next.kind ∉ binaryKinds →
      Derives .expression (tokens.take position') other →
      tokens[position']? = some next' → next'.kind ∉ binaryKinds →
      expr = other ∧ position = position') ∧
    (∀ (phrase : List Token) (expr other : Expr),
      Derives .expression phrase expr → Derives .expression phrase other → expr = other) := by
  refine ⟨fun expr position => ⟨?_, ?_⟩, ?_, fun _ _ _ phrase again => phrase.unique again⟩
  · obtain ⟨read, next, tail, result, rfl, reads, _⟩ :=
      exists_reads (.rule .expression) tokens ended.hasEnd
    cases result with
    | error cause =>
      rintro ⟨gives, _⟩
      rw [Parser.attempt, reads.parser_run tail] at gives
      cases cause <;> cases gives
    | ok found =>
      rw [reads.attempt_tree tail reporter]
      rintro ⟨⟨⟩, rfl⟩
      have closed := closes_expression_iff.mp (reads.closed expr rfl)
      exact ⟨by simpa using reads.derives, next, by simp, closed⟩
  · rintro ⟨phrase, next, here, closed⟩
    rw [phrase.attempt_tree here closed reporter]
    exact ⟨rfl, rfl⟩
  · intro expr other position position' next next' phrase here closed phrase' here' closed'
    have first := phrase.attempt_tree here closed reporter
    rw [phrase'.attempt_tree here' closed' reporter] at first
    simp only [Prod.mk.injEq, Except.ok.injEq, Option.some.injEq, Parser.mk.injEq] at first
    exact ⟨first.1.symm, first.2.1.2.symm⟩

/-- The tokens of `nil - -true * false;`, on two lines. -/
def signedProduct : List Token :=
  [⟨.keyword .nil, "nil", 1, .nil⟩, ⟨.symbol .minus, "-", 1, .nil⟩, ⟨.symbol .minus, "-", 2, .nil⟩,
    ⟨.keyword .true, "true", 2, .nil⟩, ⟨.symbol .star, "*", 2, .nil⟩,
    ⟨.keyword .false, "false", 2, .nil⟩, ⟨.symbol .semicolon, ";", 2, .nil⟩, .eof 2]

theorem attempt_signedProduct :
    Ended signedProduct ∧
    (Parser.attempt { tokens := signedProduct } {}).1 =
      .ok (some (.binary .minus (.literal .nil) (.binary .multiply
        (.unary .negate (.literal (.boolean true)) 2) (.literal (.boolean false)) 2) 1)) ∧
    (Parser.attempt { tokens := signedProduct } {}).2.1.position = 6 := by
  have ended : Ended signedProduct :=
    ⟨signedProduct.dropLast, .eof 2, rfl, by simp [NoEnd, signedProduct], rfl⟩
  refine ⟨ended, ((attempt_tree_iff_derives signedProduct ended {}).1 _ 6).mpr ⟨?_, _, rfl, by decide⟩⟩
  have left : Derives (.binary .term) (signedProduct.take 1) (.literal .nil) :=
    (Derives.atom (.nil rfl)).loosen (by decide)
  have factor : Derives (.binary .factor) ((signedProduct.drop 2).take 2)
      (.unary .negate (.literal (.boolean true)) 2) :=
    (Derives.sign .negate (.pass .unary (.atom (.true rfl)))).loosen (by decide)
  have last : Derives .unary ((signedProduct.drop 5).take 1) (.literal (.boolean false)) :=
    .pass .unary (.atom (.false rfl))
  have product : Derives (.binary .factor) ((signedProduct.drop 2).take 4) _ :=
    .operator factor .multiply .factor last
  have difference : Derives (.binary .term) (signedProduct.take 6) _ :=
    .operator left .minus .term product
  exact difference.loosen (by decide)

end Lox.Proofs
