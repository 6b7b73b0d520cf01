import Lox.Expr.Grammar

/-! The expression grammar as a relation between tokens and trees. It is written down from
the rules alone and knows nothing of a parser: each level of binary operators is left
recursive, signs stack up to the right, and parentheses lead back to a whole expression. -/

namespace Lox.Proofs

inductive Operator : Level → Kind → BinaryOp → Prop where
  | notEqual : Operator .equality (.symbol .bangEqual) .notEqual
  | equal : Operator .equality (.symbol .equalEqual) .equal
  | greater : Operator .comparison (.symbol .greater) .greater
  | greaterOrEqual : Operator .comparison (.symbol .greaterEqual) .greaterOrEqual
  | less : Operator .comparison (.symbol .less) .less
  | lessOrEqual : Operator .comparison (.symbol .lessEqual) .lessOrEqual
  | minus : Operator .term (.symbol .minus) .minus
  | plus : Operator .term (.symbol .plus) .plus
  | divide : Operator .factor (.symbol .slash) .divide
  | multiply : Operator .factor (.symbol .star) .multiply

inductive Sign : Kind → UnaryOp → Prop where
  | not : Sign (.symbol .bang) .not
  | negate : Sign (.symbol .minus) .negate

/-- The tokens that are an operand by themselves, and their values. -/
inductive Atom : Token → Value → Prop where
  | number {token : Token} (kind : token.kind = .number) : Atom token token.literal
  | string {token : Token} (kind : token.kind = .string) : Atom token token.literal
  | true {token : Token} (kind : token.kind = .keyword .true) : Atom token (.boolean true)
  | false {token : Token} (kind : token.kind = .keyword .false) : Atom token (.boolean false)
  | nil {token : Token} (kind : token.kind = .keyword .nil) : Atom token .nil

inductive Tighter : Rule → Rule → Prop where
  | expression : Tighter .expression (.binary .equality)
  | equality : Tighter (.binary .equality) (.binary .comparison)
  | comparison : Tighter (.binary .comparison) (.binary .term)
  | term : Tighter (.binary .term) (.binary .factor)
  | factor : Tighter (.binary .factor) .unary
  | unary : Tighter .unary .primary

/-- `Derives rule tokens expr`: the rule derives exactly these tokens, with this tree. -/
inductive Derives : Rule → List Token → Expr → Prop where
  | pass {rule inner : Rule} {tokens : List Token} {expr : Expr} (tighter : Tighter rule inner)
      (phrase : Derives inner tokens expr) : Derives rule tokens expr
  | operator {level : Level} {inner : Rule} {before after : List Token} {first second : Expr}
      {token : Token} {op : BinaryOp} (left : Derives (.binary level) before first)
      (symbol : Operator level token.kind op) (tighter : Tighter (.binary level) inner)
      (right : Derives inner after second) :
      Derives (.binary level) (before ++ token :: after) (.binary op first second token.line)
  | sign {tokens : List Token} {expr : Expr} {token : Token} {op : UnaryOp}
      (symbol : Sign token.kind op) (operand : Derives .unary tokens expr) :
      Derives .unary (token :: tokens) (.unary op expr token.line)
  | atom {token : Token} {value : Value} (operand : Atom token value) :
      Derives .primary [token] (.literal value)
  | group {opening closing : Token} {tokens : List Token} {expr : Expr}
      (opens : opening.kind = .symbol .leftParen) (inner : Derives .expression tokens expr)
      (closes : closing.kind = .symbol .rightParen) :
      Derives .primary (opening :: tokens ++ [closing]) (.grouping expr)

theorem operator_iff {level : Level} {kind : Kind} {op : BinaryOp} :
    Operator level kind op ↔ kind.binaryOp? = some op ∧ op.level = level := by
  constructor
  · intro symbol
    cases symbol <;> exact ⟨rfl, rfl⟩
  · rintro ⟨found, rfl⟩
    unfold Kind.binaryOp? at found
    split at found <;> cases found <;> constructor

theorem sign_iff {kind : Kind} {op : UnaryOp} : Sign kind op ↔ kind.unaryOp? = some op := by
  constructor
  · intro symbol
    cases symbol <;> rfl
  · intro found
    unfold Kind.unaryOp? at found
    split at found <;> cases found <;> constructor

theorem atom_iff {token : Token} {value : Value} :
    Atom token value ↔ token.operand? = some value := by
  constructor
  · intro operand
    cases operand with
    | number kind | string kind | true kind | false kind | nil kind => simp [Token.operand?, kind]
  · intro found
    unfold Token.operand? at found
    split at found
    case h_1 kind => cases found; exact .number kind
    case h_2 kind => cases found; exact .string kind
    case h_3 kind => cases found; exact .true kind
    case h_4 kind => cases found; exact .false kind
    case h_5 kind => cases found; exact .nil kind
    case h_6 => cases found

theorem tighter_binary_iff {level : Level} {inner : Rule} :
    Tighter (.binary level) inner ↔ inner = level.operand := by
  constructor
  · intro tighter
    cases tighter <;> rfl
  · rintro rfl
    cases level <;> constructor

theorem Derives.step {token : Token} {op : BinaryOp} {before after : List Token} {left right : Expr}
    (phrase : Derives (.binary op.level) before left) (found : token.kind.binaryOp? = some op)
    (operand : Derives op.level.operand after right) :
    Derives (.binary op.level) (before ++ token :: after) (.binary op left right token.line) :=
  .operator phrase (operator_iff.mpr ⟨found, rfl⟩) (tighter_binary_iff.mpr rfl) operand

theorem Tighter.rank {rule inner : Rule} (tighter : Tighter rule inner) :
    inner.rank + 1 = rule.rank := by
  cases tighter <;> rfl

theorem rank_operand (level : Level) : level.operand.rank + 1 = (Rule.binary level).rank :=
  (tighter_binary_iff.mpr rfl).rank

theorem rank_injective {rule other : Rule} (same : rule.rank = other.rank) : rule = other := by
  match rule, other with
  | .expression, .expression | .unary, .unary | .primary, .primary => rfl
  | .binary level, .binary level' => cases level <;> cases level' <;> first | rfl | cases same
  | .expression, .unary | .expression, .primary | .unary, .expression | .unary, .primary
  | .primary, .expression | .primary, .unary => cases same
  | .binary level, .expression | .binary level, .unary | .binary level, .primary
  | .expression, .binary level | .unary, .binary level | .primary, .binary level =>
    cases level <;> cases same

theorem rank_unary_lt (level : Level) : Rule.unary.rank < (Rule.binary level).rank := by
  cases level <;> decide

theorem exists_tighter {rule : Rule} (loose : 0 < rule.rank) : ∃ inner, Tighter rule inner := by
  match rule with
  | .expression => exact ⟨_, .expression⟩
  | .binary level => exact ⟨_, tighter_binary_iff.mpr rfl⟩
  | .unary => exact ⟨_, .unary⟩
  | .primary => cases loose

theorem Derives.loosen {rule looser : Rule} {tokens : List Token} {expr : Expr}
    (phrase : Derives rule tokens expr) (within : rule.rank ≤ looser.rank) :
    Derives looser tokens expr := by
  by_cases same : rule.rank = looser.rank
  · exact rank_injective same ▸ phrase
  · obtain ⟨inner, tighter⟩ := exists_tighter (show 0 < looser.rank by omega)
    have below := tighter.rank
    exact .pass tighter (phrase.loosen (by omega))
termination_by looser.rank

/-- A phrase goes on with any operator that its rule reaches and a further operand. -/
theorem Derives.extend {rule : Rule} {level : Level} {before after : List Token}
    {first second : Expr} {token : Token} {op : BinaryOp} (phrase : Derives rule before first)
    (reached : (Rule.binary level).rank ≤ rule.rank) (symbol : Operator level token.kind op)
    (operand : Derives .unary after second) :
    ∃ expr, Derives rule (before ++ token :: after) expr := by
  have lifted : Derives level.operand after second := by
    have room := rank_operand level
    have bound := rank_unary_lt level
    exact operand.loosen (by omega)
  induction phrase with
  | @pass rule inner before first tighter phrase ih =>
    have below := tighter.rank
    by_cases deeper : (Rule.binary level).rank ≤ inner.rank
    · obtain ⟨expr, longer⟩ := ih deeper
      exact ⟨expr, .pass tighter longer⟩
    · obtain rfl : Rule.binary level = rule := rank_injective (by omega)
      exact ⟨_, .operator (.pass tighter phrase) symbol (tighter_binary_iff.mpr rfl) lifted⟩
  | @operator found inner left right first second token' op' leftPhrase symbol' tighter
      rightPhrase _ ih =>
    -- An operator that binds tighter than the last one takes that one's right operand.
    have below := tighter.rank
    by_cases deeper : (Rule.binary level).rank ≤ inner.rank
    · obtain ⟨expr, longer⟩ := ih deeper
      have joined := Derives.operator leftPhrase symbol' tighter longer
      exact ⟨_, by simpa using joined⟩
    · obtain same : Rule.binary level = .binary found := rank_injective (by omega)
      cases same
      exact ⟨_, .operator (.operator leftPhrase symbol' tighter rightPhrase) symbol
        (tighter_binary_iff.mpr rfl) lifted⟩
  | sign _ _ | atom _ | group _ _ _ =>
    have bound := rank_unary_lt level
    simp only [Rule.rank] at reached bound
    omega

theorem Derives.join {rule : Rule} {level : Level} {before after : List Token}
    {first second : Expr} {token : Token} {op : BinaryOp}
    (left : Derives .expression before first) (symbol : Operator level token.kind op)
    (right : Derives rule after second) :
    ∃ expr, Derives .expression (before ++ token :: after) expr := by
  have reached (level : Level) : (Rule.binary level).rank ≤ Rule.expression.rank := by
    cases level <;> decide
  induction right generalizing before first level token op with
  | pass _ _ ih => exact ih left symbol
  | operator _ symbol' _ _ ihLeft ihRight =>
    obtain ⟨_, joined⟩ := ihLeft left symbol
    obtain ⟨expr, longer⟩ := ihRight joined symbol'
    exact ⟨expr, by simpa using longer⟩
  | sign symbol' operand => exact left.extend (reached level) symbol (.sign symbol' operand)
  | atom operand => exact left.extend (reached level) symbol (.pass .unary (.atom operand))
  | group opens inner closes =>
    exact left.extend (reached level) symbol (.pass .unary (.group opens inner closes))

/-- An expression after a sign is an expression; the sign takes only its first operand. -/
theorem Derives.signed {rule : Rule} {tokens : List Token} {expr : Expr} {token : Token}
    {op : UnaryOp} (symbol : Sign token.kind op) (phrase : Derives rule tokens expr) :
    ∃ expr, Derives .expression (token :: tokens) expr := by
  have operand {tokens : List Token} {expr : Expr} (phrase : Derives .unary tokens expr) :
      ∃ expr, Derives .expression (token :: tokens) expr :=
    ⟨_, (Derives.sign symbol phrase).loosen (by decide)⟩
  induction phrase with
  | pass _ _ ih => exact ih
  | operator _ symbol' _ right ihLeft =>
    obtain ⟨_, start⟩ := ihLeft
    exact start.join symbol' right
  | sign symbol' inner => exact operand (.sign symbol' inner)
  | atom atom => exact operand (.pass .unary (.atom atom))
  | group opens inner closes => exact operand (.pass .unary (.group opens inner closes))

end Lox.Proofs
