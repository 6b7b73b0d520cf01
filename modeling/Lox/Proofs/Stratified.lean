import Lox.Proofs.ParserGrammar

/-! Trees whose operators nest as their levels allow. These are exactly the trees of the grammar:
every derivation has one, and tokens that spell such a tree derive it again. Tokens that spell any
other tree are still an expression, with another tree. -/

namespace Lox.Proofs

def strength : Level → Nat
  | .equality => 1
  | .comparison => 2
  | .term => 3
  | .factor => 4

/-- How tightly a tree holds together at its top. -/
def tightness : Expr → Nat
  | .literal _ | .grouping _ => 6
  | .unary _ _ _ => 5
  | .binary op _ _ _ => strength op.level

/-- A left operand is of the operator's level or tighter, a right operand is tighter, and what
a sign stands before is no binary operation. -/
def Stratified : Expr → Prop
  | .literal _ => True
  | .unary _ operand _ => Stratified operand ∧ 5 ≤ tightness operand
  | .binary op left right _ => Stratified left ∧ Stratified right ∧
      strength op.level ≤ tightness left ∧ strength op.level < tightness right
  | .grouping inner => Stratified inner

instance decidableStratified : (expr : Expr) → Decidable (Stratified expr)
  | .literal _ => .isTrue trivial
  | .unary _ operand _ =>
    have := decidableStratified operand
    inferInstanceAs (Decidable (_ ∧ _))
  | .binary _ left right _ =>
    have := decidableStratified left
    have := decidableStratified right
    inferInstanceAs (Decidable (_ ∧ _ ∧ _ ∧ _))
  | .grouping inner => decidableStratified inner

def eraseLines : Expr → Expr
  | .literal value => .literal value
  | .unary op operand _ => .unary op (eraseLines operand) 0
  | .binary op left right _ => .binary op (eraseLines left) (eraseLines right) 0
  | .grouping inner => .grouping (eraseLines inner)

theorem tightness_eraseLines (expr : Expr) : tightness (eraseLines expr) = tightness expr := by
  cases expr <;> rfl

theorem stratified_eraseLines (expr : Expr) : Stratified (eraseLines expr) ↔ Stratified expr := by
  induction expr with
  | literal => rfl
  | unary _ _ _ ih => simp only [eraseLines, Stratified, tightness_eraseLines, ih]
  | binary _ _ _ _ ihLeft ihRight =>
    simp only [eraseLines, Stratified, tightness_eraseLines, ihLeft, ihRight]
  | grouping _ ih => exact ih

theorem strength_rank (level : Level) : strength level + (Rule.binary level).rank = 6 := by
  cases level <;> rfl

theorem Derives.stratified {rule : Rule} {tokens : List Token} {expr : Expr}
    (phrase : Derives rule tokens expr) : Stratified expr ∧ 6 ≤ tightness expr + rule.rank := by
  induction phrase with
  | pass tighter _ ih =>
    have below := tighter.rank
    exact ⟨ih.1, by omega⟩
  | @operator level inner _ _ _ _ _ op _ symbol tighter _ ihLeft ihRight =>
    obtain ⟨-, rfl⟩ := operator_iff.mp symbol
    have total := strength_rank op.level
    have below := tighter.rank
    refine ⟨⟨ihLeft.1, ihRight.1, by omega, by omega⟩, ?_⟩
    simp only [tightness]
    omega
  | sign _ _ ih =>
    have bound := ih.2
    simp only [Rule.rank] at bound
    exact ⟨⟨ih.1, by omega⟩, Nat.le_refl 6⟩
  | atom _ => exact ⟨trivial, Nat.le_refl 6⟩
  | group _ _ _ ih => exact ⟨ih.1, Nat.le_refl 6⟩

/-- `Written expr tokens`: the tokens spell the tree from left to right, whatever its nesting. -/
inductive Written : Expr → List Token → Prop where
  | literal {token : Token} {value : Value} (operand : Atom token value) : Written (.literal value) [token]
  | unary {op : UnaryOp} {operand : Expr} {line : Int} {token : Token} {tokens : List Token}
      (symbol : Sign token.kind op) (inner : Written operand tokens) :
      Written (.unary op operand line) (token :: tokens)
  | binary {op : BinaryOp} {left right : Expr} {line : Int} {token : Token} {before after : List Token}
      (first : Written left before) (symbol : Operator op.level token.kind op)
      (second : Written right after) : Written (.binary op left right line) (before ++ token :: after)
  | grouping {inner : Expr} {opening closing : Token} {tokens : List Token}
      (opens : opening.kind = .symbol .leftParen) (inside : Written inner tokens)
      (closes : closing.kind = .symbol .rightParen) :
      Written (.grouping inner) (opening :: tokens ++ [closing])

theorem Derives.written {rule : Rule} {tokens : List Token} {expr : Expr}
    (phrase : Derives rule tokens expr) : Written expr tokens := by
  induction phrase with
  | pass _ _ ih => exact ih
  | operator _ symbol _ _ ihLeft ihRight =>
    obtain ⟨-, rfl⟩ := operator_iff.mp symbol
    exact .binary ihLeft symbol ihRight
  | sign symbol _ ih => exact .unary symbol ih
  | atom operand => exact .literal operand
  | group opens _ closes ih => exact .grouping opens ih closes

theorem Written.exists_derives {expr : Expr} {tokens : List Token} (written : Written expr tokens) :
    ∃ found, Derives .expression tokens found := by
  induction written with
  | literal operand => exact ⟨_, (Derives.atom operand).loosen (by decide)⟩
  | unary symbol _ ih =>
    obtain ⟨_, phrase⟩ := ih
    exact phrase.signed symbol
  | binary _ symbol _ ihFirst ihSecond =>
    obtain ⟨_, left⟩ := ihFirst
    obtain ⟨_, right⟩ := ihSecond
    exact left.join symbol right
  | grouping opens _ closes ih =>
    obtain ⟨_, phrase⟩ := ih
    exact ⟨_, (Derives.group opens phrase closes).loosen (by decide)⟩

/-- Tokens that spell a stratified tree derive it, by every rule it is tight enough for. -/
theorem Written.derives {expr : Expr} {tokens : List Token} (written : Written expr tokens)
    (stratified : Stratified expr) {rule : Rule} (tight : 6 ≤ tightness expr + rule.rank) :
    ∃ found, Derives rule tokens found ∧ eraseLines found = eraseLines expr := by
  induction written generalizing rule with
  | literal operand => exact ⟨_, (Derives.atom operand).loosen (Nat.zero_le _), rfl⟩
  | unary symbol _ ih =>
    obtain ⟨inner, bound⟩ := stratified
    obtain ⟨found, phrase, same⟩ := @ih inner .unary (Nat.succ_le_succ bound)
    refine ⟨_, (Derives.sign symbol phrase).loosen ?_, ?_⟩
    · simp only [tightness] at tight
      change 1 ≤ rule.rank
      omega
    · simp only [eraseLines, same]
  | @binary op _ _ _ _ _ _ _ symbol _ ihFirst ihSecond =>
    obtain ⟨left, right, loose, strict⟩ := stratified
    have total := strength_rank op.level
    have room := rank_operand op.level
    obtain ⟨first, phrase, same⟩ := @ihFirst left (.binary op.level) (by omega)
    obtain ⟨second, phrase', same'⟩ := @ihSecond right op.level.operand (by omega)
    refine ⟨_, (phrase.step (operator_iff.mp symbol).1 phrase').loosen ?_, ?_⟩
    · simp only [tightness] at tight
      omega
    · simp only [eraseLines, same, same']
  | grouping opens _ closes ih =>
    obtain ⟨found, phrase, same⟩ := @ih stratified .expression (Nat.le_add_left _ _)
    refine ⟨_, (Derives.group opens phrase closes).loosen (Nat.zero_le _), ?_⟩
    simp only [eraseLines, same]

/-- The tree of tokens that spell another one is that tree, but for lines, exactly if the other
is stratified. -/
theorem Written.same_iff {expr found : Expr} {tokens : List Token} (written : Written expr tokens)
    (phrase : Derives .expression tokens found) :
    eraseLines found = eraseLines expr ↔ Stratified expr := by
  constructor
  · intro same
    rw [← stratified_eraseLines, ← same, stratified_eraseLines]
    exact phrase.stratified.1
  · intro stratified
    obtain ⟨again, phrase', same⟩ := @Written.derives _ _ written stratified .expression (Nat.le_add_left _ _)
    rw [phrase.unique phrase', same]

end Lox.Proofs
