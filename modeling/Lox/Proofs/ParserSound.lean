import Lox.Expr.Parser
import Lox.Proofs.Grammar
import Lox.Proofs.ParserTrace

/-! A tree comes with a derivation of the tokens it was read from, whatever tokens there are and
whether or not an end of input is among them. -/

namespace Lox.Proofs

/-- What a tree says of the tokens it was read from. After a left operand the phrase grows by them,
whatever tokens that operand was. -/
def Task.Yields : Task → List Token → Expr → Prop
  | .rule goal, read, expr => Derives goal read expr
  | .more level left, read, expr =>
    ∀ before, Derives (.binary level) before left → Derives (.binary level) (before ++ read) expr

def Task.Sound (task : Task) (tokens : List Token) : Prop :=
  ∀ expr rest, task.run tokens = (.ok expr, rest) → ∃ read, tokens = read ++ rest ∧ task.Yields read expr

private theorem binary_sound {level : Level} {tokens : List Token}
    (first : (Task.rule level.operand).Sound tokens)
    (later : ∀ left rest, rest.length ≤ tokens.length → (Task.more level left).Sound rest) :
    (Task.rule (.binary level)).Sound tokens := by
  intro expr rest gives
  rw [run_binary] at gives
  split at gives
  next left after found =>
    obtain ⟨ahead, rfl, phrase⟩ := first _ _ found
    obtain ⟨read, rfl, longer⟩ := later left after (by simp) _ _ gives
    refine ⟨ahead ++ read, (List.append_assoc _ _ _).symm, ?_⟩
    exact longer ahead (.pass (tighter_binary_iff.mpr rfl) phrase)
  next => cases gives

private theorem unary_sound {token : Token} {later : List Token}
    (primary : (Task.rule .primary).Sound (token :: later)) (operand : (Task.rule .unary).Sound later) :
    (Task.rule .unary).Sound (token :: later) := by
  intro expr rest gives
  cases sign : token.kind.unaryOp? with
  | none =>
    have unsigned : (Task.rule .primary).run (token :: later) = (.ok expr, rest) := by
      simp only [Task.run] at gives ⊢
      rwa [parse, sign] at gives
    obtain ⟨read, split, phrase⟩ := primary _ _ unsigned
    exact ⟨read, split, .pass .unary phrase⟩
  | some op =>
    rw [run_sign later sign] at gives
    split at gives
    next inner after found =>
      cases gives
      obtain ⟨read, rfl, phrase⟩ := operand _ _ found
      exact ⟨token :: read, rfl, .sign (sign_iff.mpr sign) phrase⟩
    next => cases gives

private theorem primary_sound {token : Token} {later : List Token}
    (inner : (Task.rule .expression).Sound later) : (Task.rule .primary).Sound (token :: later) := by
  intro expr rest gives
  cases literal : token.operand? with
  | some value =>
    simp only [Task.run] at gives
    rw [parse, literal] at gives
    cases gives
    exact ⟨[token], rfl, .atom (atom_iff.mpr literal)⟩
  | none =>
    by_cases opens : token.kind = .symbol .leftParen
    · rw [run_group later opens] at gives
      split at gives
      next => cases gives
      next => cases gives
      next found closing after same =>
        split at gives
        next closes =>
          cases gives
          obtain ⟨read, rfl, phrase⟩ := inner _ _ same
          exact ⟨token :: read ++ [closing], by simp, .group opens phrase closes⟩
        next => cases gives
    · simp only [Task.run] at gives
      rw [parse, literal] at gives
      simp only [opens, if_false, outcome] at gives
      cases gives

private theorem more_sound {level : Level} {left : Expr} {token : Token} {later : List Token}
    (operand : (Task.rule level.operand).Sound later)
    (further : ∀ left rest, rest.length ≤ later.length → (Task.more level left).Sound rest) :
    (Task.more level left).Sound (token :: later) := by
  intro expr rest gives
  by_cases other : ∀ op, token.kind.binaryOp? = some op → op.level ≠ level
  · rw [run_stop left later other] at gives
    cases gives
    exact ⟨[], rfl, fun before phrase => by simpa using phrase⟩
  · obtain ⟨op, found, rfl⟩ : ∃ op, token.kind.binaryOp? = some op ∧ op.level = level := by
      simpa using other
    rw [run_more left later found] at gives
    split at gives
    next right after first =>
      obtain ⟨ahead, rfl, phrase⟩ := operand _ _ first
      obtain ⟨read, rfl, longer⟩ := further _ after (by simp) _ _ gives
      refine ⟨token :: ahead ++ read, by simp, fun before leftPhrase => ?_⟩
      simpa using longer _ (leftPhrase.step found phrase)
    next => cases gives

theorem run_sound (task : Task) (tokens : List Token) : task.Sound tokens := by
  match task, tokens with
  | .rule .expression, tokens =>
    intro expr rest gives
    have passed : (Task.rule (.binary .equality)).run tokens = (.ok expr, rest) := by
      simp only [Task.run] at gives ⊢
      rwa [parse] at gives
    obtain ⟨read, split, phrase⟩ := run_sound _ _ _ _ passed
    exact ⟨read, split, .pass .expression phrase⟩
  | .rule (.binary level), tokens =>
    have tighter := Rule.rank_operand_lt level
    exact binary_sound (run_sound (.rule level.operand) tokens)
      (fun left after fewer => run_sound (.more level left) after)
  | .rule .unary, token :: later =>
    exact unary_sound (run_sound (.rule .primary) (token :: later)) (run_sound (.rule .unary) later)
  | .rule .primary, token :: later => exact primary_sound (run_sound (.rule .expression) later)
  | .more level left, token :: later =>
    have tighter := Rule.rank_lt level.operand
    exact more_sound (run_sound (.rule level.operand) later)
      (fun left after fewer => run_sound (.more level left) after)
  | .rule .unary, [] | .rule .primary, [] =>
    intro expr rest gives
    simp only [Task.run] at gives
    rw [parse] at gives
    cases gives
  | .more level left, [] =>
    intro expr rest gives
    simp only [Task.run] at gives
    rw [parseMore] at gives
    cases gives
termination_by task.work tokens
decreasing_by
  all_goals
    simp only [Task.work, Rule.rank, List.length_cons] at *
    omega

theorem attempt_tree_iff_parse {parser : Parser} {reporter : Reporter} {expr : Expr} :
    (parser.attempt reporter).1 = .ok (some expr) ↔
      ∃ rest fewer, parse .expression parser.ahead = .tree expr rest fewer := by
  constructor
  · intro gives
    cases found : parse .expression parser.ahead with
    | tree tree rest fewer =>
      have same : tree = expr := by
        simp only [Parser.attempt, Parser.run, found] at gives
        simpa using gives
      exact ⟨rest, fewer, by rw [same]⟩
    | fault cause rest =>
      simp only [Parser.attempt, Parser.run, found] at gives
      cases cause <;> cases gives
  · rintro ⟨rest, fewer, found⟩
    simp only [Parser.attempt, Parser.run, found]

theorem attempt_derives {parser : Parser} {reporter : Reporter} {expr : Expr}
    (gives : (parser.attempt reporter).1 = .ok (some expr)) :
    ∃ read rest, parser.ahead = read ++ rest ∧ Derives .expression read expr := by
  obtain ⟨rest, fewer, found⟩ := attempt_tree_iff_parse.mp gives
  obtain ⟨read, split, phrase⟩ := run_sound (.rule .expression) parser.ahead expr rest (congrArg outcome found)
  exact ⟨read, rest, split, phrase⟩

theorem Reads.derives {rule : Rule} {read : List Token} {next : Token} {expr : Expr}
    (reads : Reads (.rule rule) read next (.ok expr)) : Derives rule read expr := by
  obtain ⟨taken, split, phrase⟩ := run_sound (.rule rule) _ _ _ (reads.run [])
  rw [List.append_cancel_right split]
  exact phrase

end Lox.Proofs
