import Lox.Proofs.CursorParsing
import Lox.Proofs.ParserFaults

/-! A parser in use. Its rules and its single steps may be called in any order, also after a call that failed
half way through an expression. As long as there is an end of input somewhere, no call looks past it, none
goes back, and each comes to an end. -/

namespace Lox.Proofs

/-- What one can ask of a parser. -/
inductive Call where
  | parse
  | rule (goal : Rule)
  | current
  | advance
  | accept (kinds : List Kind)
  | expect (kind : Kind) (message : String)
  | isAtEnd
  | synchronize

inductive Answer where
  | tree (expr : Expr)
  | noTree
  | token (token : Token)
  | noToken
  | flag (value : Bool)
  | nothing

/-- The answer to a call and what it leaves behind. A call that fails leaves the parser where it
stopped. -/
def Call.perform (parser : Parser) (reporter : Reporter) : Call → Except ParseFault Answer × Parser × Reporter
  | .parse =>
    let (result, moved, reporter) := parser.attempt reporter
    (result.map fun found => found.elim .noTree .tree, moved, reporter)
  | .rule goal =>
    let (result, moved) := parser.run goal
    (result.map .tree, moved, reporter)
  | .current => (parser.current.map .token, parser, reporter)
  | .advance =>
    let (result, moved) := parser.advance
    (result.map .token, moved, reporter)
  | .accept kinds =>
    let (result, moved) := parser.accept kinds
    (result.map fun found => found.elim .noToken .token, moved, reporter)
  | .expect kind message =>
    let (result, moved) := parser.expect kind message
    (result.map .token, moved, reporter)
  | .isAtEnd => (parser.isAtEnd.map .flag, parser, reporter)
  | .synchronize =>
    let (result, moved) := parser.synchronize
    (result.map fun _ => .nothing, moved, reporter)

/-- One call in a sequence of calls. -/
structure Turn where
  call : Call
  before : Parser
  answer : Except ParseFault Answer
  after : Parser

def Call.turn (parser : Parser) (reporter : Reporter) (call : Call) : Turn :=
  ⟨call, parser, (call.perform parser reporter).1, (call.perform parser reporter).2.1⟩

/-- The calls one after the other, each from where the last one left the parser. -/
def callTurns (parser : Parser) (reporter : Reporter) : List Call → List Turn
  | [] => []
  | call :: later =>
    call.turn parser reporter ::
      callTurns (call.perform parser reporter).2.1 (call.perform parser reporter).2.2 later

/-- The index of the first end of input. -/
def firstEnd (tokens : List Token) : Nat := tokens.findIdx fun token => token.kind = .eof

/-- The rule that a call goes through, if it does. -/
def Call.rule? : Call → Option Rule
  | .parse => some .expression
  | .rule goal => some goal
  | .current | .advance | .accept _ | .expect _ _ | .isAtEnd | .synchronize => none

/-- A call that keeps to the tokens up to the first end of input. The rules and the loop of a synchronization have
just one execution, and it ends where the call leaves the parser; the other calls are single steps. -/
structure Inside (tokens : List Token) (turn : Turn) : Prop where
  found : turn.answer ≠ .error .outOfTokens
  forward : turn.before.position ≤ turn.after.position
  bounded : turn.after.position ≤ firstEnd tokens
  progress : ∀ expr, turn.answer = .ok (.tree expr) → turn.before.position < turn.after.position
  parsing : ∀ rule, turn.call.rule? = some rule → ∃ result,
    (∀ result' moved, Executes (.rule rule) turn.before result' moved ↔ result' = result ∧ moved = turn.after) ∧
    ∀ expr, turn.answer = .ok (.tree expr) ↔ result = .ok expr
  synchronizing : turn.call = .synchronize → ∃ looks, ∀ looks' moved,
    Synchronizes turn.before looks' moved ↔ looks' = looks ∧ moved = turn.after

/-- The parser has not gone past the first end of input. -/
structure Before (tokens : List Token) (parser : Parser) : Prop where
  same : parser.tokens = tokens
  bounded : parser.position ≤ firstEnd tokens

/-- A call that keeps inside and leaves the parser there. -/
structure Kept (tokens : List Token) (turn : Turn) : Prop where
  inside : Inside tokens turn
  after : Before tokens turn.after

section
variable {tokens read rest : List Token} {parser : Parser}

theorem firstEnd_getElem? (ended : HasEnd tokens) :
    ∃ last, tokens[firstEnd tokens]? = some last ∧ last.kind = .eof := by
  obtain ⟨last, member, kind⟩ := ended
  have inside : firstEnd tokens < tokens.length :=
    List.findIdx_lt_length_of_exists ⟨last, member, decide_eq_true kind⟩
  exact ⟨_, List.getElem?_eq_getElem inside, of_decide_eq_true (List.findIdx_getElem (w := inside))⟩

theorem Before.end_ahead (before : Before tokens parser) (ended : HasEnd tokens) :
    ∃ last, parser.ahead[firstEnd tokens - parser.position]? = some last ∧ last.kind = .eof := by
  obtain ⟨last, here, kind⟩ := firstEnd_getElem? ended
  refine ⟨last, ?_, kind⟩
  rw [Parser.ahead, before.same, List.getElem?_drop, Nat.add_sub_cancel' before.bounded, here]

theorem Before.hasEnd (before : Before tokens parser) (ended : HasEnd tokens) : HasEnd parser.ahead := by
  obtain ⟨last, here, kind⟩ := before.end_ahead ended
  exact ⟨last, List.mem_of_getElem? here, kind⟩

/-- Tokens that are no end of input may be passed over. -/
theorem Before.skip (before : Before tokens parser) (ended : HasEnd tokens) (ahead : parser.ahead = read ++ rest)
    (taken : NoEnd read) : Before tokens (skip parser read.length) := by
  refine ⟨before.same, ?_⟩
  by_contra beyond
  obtain ⟨last, here, kind⟩ := before.end_ahead ended
  have reached : firstEnd tokens - parser.position < read.length := by
    have bounded := before.bounded
    simp only [Proofs.skip] at beyond
    omega
  rw [ahead, List.getElem?_append_left reached] at here
  exact taken last (List.mem_of_getElem? here) kind

theorem Before.current_ok (before : Before tokens parser) (ended : HasEnd tokens) :
    ∃ token rest, parser.ahead = token :: rest ∧ parser.current = .ok token := by
  obtain ⟨token, rest, ahead⟩ := (before.hasEnd ended).exists_cons
  exact ⟨token, rest, ahead, current_of_ahead ahead⟩

/-- A step takes the current token, and stays where it is at an end of input. -/
theorem Before.advance_ok (before : Before tokens parser) (ended : HasEnd tokens) :
    ∃ token moved, parser.advance = (.ok token, moved) ∧ parser.position ≤ moved.position ∧ Before tokens moved := by
  obtain ⟨token, rest, ahead, here⟩ := before.current_ok ended
  by_cases ending : token.kind = .eof
  · refine ⟨token, parser, ?_, Nat.le_refl _, before⟩
    rw [Parser.advance, here]
    simp only [ending, if_true]
  · have after : Before tokens (Proofs.skip parser 1) :=
      @Before.skip tokens [token] rest parser before ended ahead (.cons ending (by simp [NoEnd]))
    exact ⟨token, _, advance_of_ahead ahead ending, Nat.le_succ _, after⟩

/-- A call that neither goes through a rule nor synchronizes. -/
def Call.isStep (call : Call) : Prop := call.rule? = none ∧ call ≠ .synchronize

/-- An answer that is no tree and does not come from looking past the tokens. -/
def IsPlain (answer : Except ParseFault Answer) : Prop :=
  answer ≠ .error .outOfTokens ∧ ∀ expr, answer ≠ .ok (.tree expr)

theorem kept_of_step {call : Call} {answer : Except ParseFault Answer} {moved : Parser} (step : call.isStep)
    (plain : IsPlain answer) (forward : parser.position ≤ moved.position) (after : Before tokens moved) :
    Kept tokens ⟨call, parser, answer, moved⟩ := by
  refine ⟨⟨plain.1, forward, after.bounded, fun expr same => absurd same (plain.2 expr), ?_, ?_⟩, after⟩
  · intro rule same
    cases step.1.symm.trans same
  · exact fun same => absurd same step.2

theorem accept_kept (before : Before tokens parser) (ended : HasEnd tokens) (kinds : List Kind) (reporter : Reporter) :
    Kept tokens ((Call.accept kinds).turn parser reporter) := by
  obtain ⟨token, rest, ahead, here⟩ := before.current_ok ended
  by_cases member : token.kind ∈ kinds
  · obtain ⟨taken, moved, steps, forward, after⟩ := before.advance_ok ended
    have found : parser.accept kinds = (.ok (some taken), moved) := by
      rw [Parser.accept, here]
      simp only [member, if_true, steps]
      rfl
    simp only [Call.turn, Call.perform, found]
    exact kept_of_step (by simp [Call.isStep, Call.rule?]) (by simp [IsPlain, Except.map]) forward after
  · simp only [Call.turn, Call.perform, accept_of_not_mem ahead member]
    exact kept_of_step (by simp [Call.isStep, Call.rule?]) (by simp [IsPlain, Except.map]) (Nat.le_refl _) before

theorem expect_kept (before : Before tokens parser) (ended : HasEnd tokens) (kind : Kind) (message : String)
    (reporter : Reporter) : Kept tokens ((Call.expect kind message).turn parser reporter) := by
  obtain ⟨token, rest, ahead, here⟩ := before.current_ok ended
  by_cases same : token.kind = kind
  · obtain ⟨taken, moved, steps, forward, after⟩ := before.advance_ok ended
    have found : parser.expect kind message = (.ok taken, moved) := by
      rw [Parser.expect, here]
      simp only [same, if_true, steps]
    simp only [Call.turn, Call.perform, found]
    exact kept_of_step (by simp [Call.isStep, Call.rule?]) (by simp [IsPlain, Except.map]) forward after
  · simp only [Call.turn, Call.perform, expect_of_ne ahead same]
    exact kept_of_step (by simp [Call.isStep, Call.rule?]) (by simp [IsPlain, Except.map]) (Nat.le_refl _) before

theorem Reads.ne_nil {rule : Rule} {next : Token} {expr : Expr} (reads : Reads (.rule rule) read next (.ok expr)) :
    read ≠ [] := by
  obtain ⟨last, found, -⟩ := reads.derives.ends
  rintro rfl
  cases found

theorem Reads.cause_ne {task : Task} {next : Token} {cause : ParseFault} (reads : Reads task read next (.error cause)) :
    cause ≠ .outOfTokens := by
  rintro rfl
  cases reads.blames _ rfl

/-- A call that goes through a rule is kept if its answer tells the tree of the rule. -/
theorem rule_kept (call : Call) {goal : Rule} (goes : call.rule? = some goal) (before : Before tokens parser)
    (ended : HasEnd tokens) :
    ∃ result moved, parser.run goal = (result, moved) ∧ result ≠ .error .outOfTokens ∧
      ∀ answer, answer ≠ .error .outOfTokens → (∀ expr, answer = .ok (.tree expr) ↔ result = .ok expr) →
        Kept tokens ⟨call, parser, answer, moved⟩ := by
  obtain ⟨read, next, tail, result, ahead, taken, reads, run⟩ := run_reads (before.hasEnd ended) goal
  have after := before.skip ended ahead taken
  refine ⟨result, _, run, ?_, fun answer found tree => ⟨⟨found, ?_, after.bounded, ?_, ?_, ?_⟩, after⟩⟩
  · rintro rfl
    exact reads.cause_ne rfl
  · exact Nat.le_add_right _ _
  · intro expr same
    obtain rfl := (tree expr).mp same
    exact Nat.lt_add_of_pos_right (List.length_pos_iff.mpr reads.ne_nil)
  · intro rule same
    cases goes.symm.trans same
    refine ⟨result, fun result' moved => ?_, tree⟩
    rw [executes_iff (before.hasEnd ended), run, Prod.mk.injEq, eq_comm, @eq_comm _ _ moved]
  · intro same
    subst same
    cases goes

/-- Recovery stops at the latest at the first end of input, for that is a boundary. -/
theorem Before.synchronize_ok (before : Before tokens parser) (ended : HasEnd tokens) :
    ∃ boundary, parser.synchronize = (.ok (), ⟨tokens, boundary⟩) ∧ parser.position ≤ boundary ∧
      boundary ≤ firstEnd tokens := by
  obtain ⟨token, rest, ahead, -⟩ := before.current_ok ended
  obtain ⟨tokens, position⟩ := parser
  obtain rfl := before.same
  have here := (drop_eq_cons ahead).1
  by_cases ending : token.kind = .eof
  · exact ⟨position, synchronize_ending here ending, Nat.le_refl _, before.bounded⟩
  · obtain ⟨boundary, found, member, least⟩ := synchronize_least here ending (before.hasEnd ended)
    obtain ⟨last, final, kind⟩ := firstEnd_getElem? ended
    have inside : position < firstEnd tokens :=
      (@Before.skip tokens [token] rest ⟨tokens, position⟩ before ended ahead (.cons ending (by simp [NoEnd]))).bounded
    exact ⟨boundary, found, Nat.le_of_lt member.1, least ⟨inside, .ending final kind⟩⟩

theorem synchronize_kept (before : Before tokens parser) (ended : HasEnd tokens) (reporter : Reporter) :
    Kept tokens (Call.synchronize.turn parser reporter) := by
  obtain ⟨boundary, found, forward, bounded⟩ := before.synchronize_ok ended
  obtain ⟨token, rest, ahead, -⟩ := before.current_ok ended
  obtain ⟨looks, -, only⟩ := synchronizes_iff (drop_eq_cons ahead).1 (before.hasEnd ended)
  simp only [Call.turn, Call.perform, found]
  refine ⟨⟨by simp [Except.map], forward, bounded, by simp [Except.map], by simp [Call.rule?], ?_⟩, rfl, bounded⟩
  refine fun _ => ⟨looks, fun looks' moved => ?_⟩
  rw [only, found]

/-- What one call does, whatever the calls before it were. -/
theorem Call.kept (call : Call) (before : Before tokens parser) (ended : HasEnd tokens) (reporter : Reporter) :
    Kept tokens (call.turn parser reporter) := by
  cases call with
  | parse =>
    obtain ⟨result, moved, run, found, kept⟩ := rule_kept .parse rfl before ended
    cases result with
    | ok expr =>
      simp only [Call.turn, Call.perform, Parser.attempt, run]
      exact kept _ (by simp [Except.map]) (by simp [Except.map])
    | error cause =>
      -- A fault of the input is reported and answered with no tree.
      have reported : (Call.parse.perform parser reporter).1 = .ok .noTree ∧
          (Call.parse.perform parser reporter).2.1 = moved := by
        cases cause with
        | outOfTokens => exact absurd rfl found
        | _ => simp only [Call.perform, Parser.attempt, run, Except.map, Option.elim, and_self]
      rw [Call.turn, reported.1, reported.2]
      exact kept _ (by simp) (by simp)
  | rule goal =>
    obtain ⟨result, moved, run, found, kept⟩ := rule_kept (.rule goal) rfl before ended
    simp only [Call.turn, Call.perform, run]
    cases result with
    | ok expr => exact kept _ (by simp [Except.map]) (by simp [Except.map])
    | error cause => exact kept _ (by simpa [Except.map] using found) (by simp [Except.map])
  | current =>
    obtain ⟨token, _, _, here⟩ := before.current_ok ended
    simp only [Call.turn, Call.perform, here]
    exact kept_of_step (by simp [Call.isStep, Call.rule?]) (by simp [IsPlain, Except.map]) (Nat.le_refl _) before
  | advance =>
    obtain ⟨token, moved, steps, forward, after⟩ := before.advance_ok ended
    simp only [Call.turn, Call.perform, steps]
    exact kept_of_step (by simp [Call.isStep, Call.rule?]) (by simp [IsPlain, Except.map]) forward after
  | accept kinds => exact accept_kept before ended kinds reporter
  | expect kind message => exact expect_kept before ended kind message reporter
  | isAtEnd =>
    obtain ⟨token, _, _, here⟩ := before.current_ok ended
    simp only [Call.turn, Call.perform, Parser.isAtEnd, here]
    exact kept_of_step (by simp [Call.isStep, Call.rule?]) (by simp [IsPlain, Except.map]) (Nat.le_refl _) before
  | synchronize => exact synchronize_kept before ended reporter

theorem Before.turns_kept (before : Before tokens parser) (ended : HasEnd tokens) (reporter : Reporter)
    (calls : List Call) : ∀ turn ∈ callTurns parser reporter calls, Kept tokens turn := by
  induction calls generalizing parser reporter with
  | nil => simp [callTurns]
  | cons call later ih =>
    have kept := call.kept before ended reporter
    rw [callTurns]
    intro turn member
    rcases List.mem_cons.mp member with rfl | member
    · exact kept
    · exact ih kept.after _ turn member

theorem map_call_callTurns (parser : Parser) (reporter : Reporter) (calls : List Call) :
    (callTurns parser reporter calls).map Turn.call = calls := by
  induction calls generalizing parser reporter with
  | nil => rfl
  | cons call later ih =>
    rw [callTurns, List.map_cons, ih]
    rfl

end

/-- However a new parser is used, every call is answered, goes through one execution that ends, and keeps between
where it started and the first end of input. -/
theorem calls_inside (tokens : List Token) (ended : HasEnd tokens) (reporter : Reporter) (calls : List Call) :
    (callTurns { tokens } reporter calls).map Turn.call = calls ∧
      ∀ turn ∈ callTurns { tokens } reporter calls, Inside tokens turn := by
  refine ⟨map_call_callTurns .., fun turn member => ?_⟩
  have start : Before tokens { tokens } := ⟨rfl, Nat.zero_le _⟩
  exact (start.turns_kept ended reporter calls turn member).inside

/-- An expression that breaks off, and tokens beyond the end of input that would have closed it. -/
def broken : List Token :=
  [⟨.symbol .leftParen, "(", 1, .nil⟩, ⟨.keyword .nil, "nil", 1, .nil⟩, ⟨.keyword .var, "var", 1, .nil⟩, .eof 1,
    ⟨.symbol .rightParen, ")", 2, .nil⟩, .eof 2]

def recovery : List Call :=
  [.rule .unary, .parse, .advance, .rule .primary, .accept [.eof], .expect (.symbol .rightParen) "", .synchronize]

theorem calls_inside_broken :
    HasEnd broken ∧ firstEnd broken = 3 ∧
      (callTurns { tokens := broken } {} recovery).map (fun turn => turn.after.position) = [2, 2, 3, 3, 3, 3, 3] ∧
      ∀ turn ∈ callTurns { tokens := broken } {} recovery, Inside broken turn := by
  have ended : HasEnd broken := ⟨.eof 1, by simp [broken], rfl⟩
  exact ⟨ended, by decide, by decide +kernel, (calls_inside broken ended {} recovery).2⟩

end Lox.Proofs
