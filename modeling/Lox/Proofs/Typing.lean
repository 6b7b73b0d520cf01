import Lox.Expr.Eval

/-! A type discipline for expressions. An operator has a finite table of signatures, and a tree has
a type when every operator in it meets one of them. Evaluation succeeds on exactly the trees that
have a type, so the values of literals decide what a tree gives but never whether it gives it. -/

namespace Lox.Proofs

/-- The type of the operand and the type of the result. -/
def unarySignatures : UnaryOp → List (ValueType × ValueType)
  | .not => [(.boolean, .boolean)]
  | .negate => [(.number, .number)]

/-- The types of the two operands and the type of the result. -/
def binarySignatures : BinaryOp → List (ValueType × ValueType × ValueType)
  | .plus => [(.number, .number, .number), (.string, .string, .string)]
  | .minus | .multiply | .divide => [(.number, .number, .number)]
  | .less | .lessOrEqual | .greater | .greaterOrEqual => [(.number, .number, .boolean)]
  | .equal | .notEqual =>
    [(.boolean, .boolean, .boolean), (.number, .number, .boolean), (.string, .string, .boolean)]

inductive HasType : Expr → ValueType → Prop where
  | literal {value : Value} : HasType (.literal value) value.type
  | grouping {inner : Expr} {type : ValueType} (typed : HasType inner type) : HasType (.grouping inner) type
  | unary {op : UnaryOp} {operand : Expr} {line : Int} {given type : ValueType}
      (typed : HasType operand given) (admitted : (given, type) ∈ unarySignatures op) :
      HasType (.unary op operand line) type
  | binary {op : BinaryOp} {left right : Expr} {line : Int} {first second type : ValueType}
      (typedLeft : HasType left first) (typedRight : HasType right second)
      (admitted : (first, second, type) ∈ binarySignatures op) :
      HasType (.binary op left right line) type

/-- Trees that differ in their lines, and in the values of literals but not in their types. -/
inductive Alike : Expr → Expr → Prop where
  | literal {value other : Value} (same : value.type = other.type) : Alike (.literal value) (.literal other)
  | grouping {inner inner' : Expr} (alike : Alike inner inner') : Alike (.grouping inner) (.grouping inner')
  | unary {op : UnaryOp} {operand operand' : Expr} {line line' : Int} (alike : Alike operand operand') :
      Alike (.unary op operand line) (.unary op operand' line')
  | binary {op : BinaryOp} {left left' right right' : Expr} {line line' : Int} (first : Alike left left')
      (second : Alike right right') : Alike (.binary op left right line) (.binary op left' right' line')

/-- The operands of a fault are such that no signature of its operator admits them. -/
def Refused : EvalFault → Prop
  | .unary op operand _ => ∀ type, (operand.type, type) ∉ unarySignatures op
  | .binary op left right _ => ∀ type, (left.type, right.type, type) ∉ binarySignatures op

theorem unary_result {op : UnaryOp} {operand result : Value} (gives : op.result? operand = some result)
    (type : ValueType) : (operand.type, type) ∈ unarySignatures op ↔ result.type = type := by
  cases op <;> cases operand <;> cases gives <;> simp [unarySignatures, Value.type, eq_comm]

theorem unary_refused {op : UnaryOp} {operand : Value} (refuses : op.result? operand = none)
    (type : ValueType) : (operand.type, type) ∉ unarySignatures op := by
  cases op <;> cases operand <;> cases refuses <;> simp [unarySignatures, Value.type]

theorem binary_result {op : BinaryOp} {left right result : Value}
    (gives : op.result? left right = some result) (type : ValueType) :
    (left.type, right.type, type) ∈ binarySignatures op ↔ result.type = type := by
  cases op <;> cases left <;> cases right <;> cases gives <;> simp [binarySignatures, Value.type, eq_comm]

theorem binary_refused {op : BinaryOp} {left right : Value} (refuses : op.result? left right = none)
    (type : ValueType) : (left.type, right.type, type) ∉ binarySignatures op := by
  cases op <;> cases left <;> cases right <;> cases refuses <;> simp [binarySignatures, Value.type]

/-- How an evaluation ends says which types the tree has: that of the value, or none at all. -/
def Settles (expr : Expr) : Except EvalFault Value → Prop
  | .ok value => ∀ type, HasType expr type ↔ value.type = type
  | .error fault => Refused fault ∧ ∀ type, ¬ HasType expr type

section
variable {inner operand left right : Expr} {type : ValueType} {fault : EvalFault} {value first second : Value}

theorem hasType_literal_iff : HasType (.literal value) type ↔ value.type = type := by
  constructor
  · rintro ⟨⟩
    rfl
  · rintro rfl
    exact .literal

theorem hasType_grouping_iff : HasType (.grouping inner) type ↔ HasType inner type := by
  constructor
  · rintro (_ | typed)
    exact typed
  · exact .grouping

theorem hasType_unary_iff {op : UnaryOp} {line : Int} : HasType (.unary op operand line) type ↔
    ∃ given, HasType operand given ∧ (given, type) ∈ unarySignatures op := by
  constructor
  · rintro (_ | _ | ⟨typed, admitted⟩)
    exact ⟨_, typed, admitted⟩
  · rintro ⟨given, typed, admitted⟩
    exact .unary typed admitted

theorem hasType_binary_iff {op : BinaryOp} {line : Int} : HasType (.binary op left right line) type ↔
    ∃ first second, HasType left first ∧ HasType right second ∧
      (first, second, type) ∈ binarySignatures op := by
  constructor
  · rintro (_ | _ | _ | ⟨typedLeft, typedRight, admitted⟩)
    exact ⟨_, _, typedLeft, typedRight, admitted⟩
  · rintro ⟨first, second, typedLeft, typedRight, admitted⟩
    exact .binary typedLeft typedRight admitted

/-- A part that cannot be evaluated leaves the whole without a type. -/
theorem Settles.fails {part whole : Expr} (settled : Settles part (.error fault))
    (needed : ∀ type, HasType whole type → ∃ given, HasType part given) : Settles whole (.error fault) := by
  refine ⟨settled.1, fun type typed => ?_⟩
  obtain ⟨given, typedPart⟩ := needed type typed
  exact settled.2 given typedPart

theorem Settles.unary (op : UnaryOp) (line : Int) (settled : Settles operand (.ok value)) :
    Settles (.unary op operand line) (match op.result? value with
      | some result => .ok result
      | none => .error (.unary op value line)) := by
  have signature : ∀ type, HasType (.unary op operand line) type ↔
      (value.type, type) ∈ unarySignatures op := by
    intro type
    rw [hasType_unary_iff]
    simp only [settled _, exists_eq_left']
  split
  next result gives =>
    intro type
    rw [signature, unary_result gives]
  next refuses =>
    refine ⟨unary_refused refuses, fun type typed => ?_⟩
    exact unary_refused refuses type ((signature type).mp typed)

theorem Settles.binary (op : BinaryOp) (line : Int) (settledLeft : Settles left (.ok first))
    (settledRight : Settles right (.ok second)) :
    Settles (.binary op left right line) (match op.result? first second with
      | some result => .ok result
      | none => .error (.binary op first second line)) := by
  have signature : ∀ type, HasType (.binary op left right line) type ↔
      (first.type, second.type, type) ∈ binarySignatures op := by
    intro type
    rw [hasType_binary_iff]
    simp only [settledLeft _, settledRight _, exists_and_left, exists_eq_left']
  split
  next result gives =>
    intro type
    rw [signature, binary_result gives]
  next refuses =>
    refine ⟨binary_refused refuses, fun type typed => ?_⟩
    exact binary_refused refuses type ((signature type).mp typed)

end

theorem eval_settles (expr : Expr) : Settles expr expr.eval := by
  induction expr with
  | literal value => exact fun type => hasType_literal_iff
  | grouping inner ih =>
    rw [Expr.eval]
    cases found : inner.eval with
    | error fault =>
      rw [found] at ih
      exact ih.fails fun type typed => ⟨type, hasType_grouping_iff.mp typed⟩
    | ok value =>
      rw [found] at ih
      intro type
      rw [hasType_grouping_iff]
      exact ih type
  | unary op operand line ih =>
    rw [Expr.eval]
    cases found : operand.eval with
    | error fault =>
      rw [found] at ih
      apply ih.fails
      intro type typed
      obtain ⟨given, typedOperand, -⟩ := hasType_unary_iff.mp typed
      exact ⟨given, typedOperand⟩
    | ok value =>
      rw [found] at ih
      exact ih.unary op line
  | binary op left right line ihLeft ihRight =>
    rw [Expr.eval]
    cases foundLeft : left.eval with
    | error fault =>
      rw [foundLeft] at ihLeft
      apply ihLeft.fails
      intro type typed
      obtain ⟨given, -, typedLeft, -⟩ := hasType_binary_iff.mp typed
      exact ⟨given, typedLeft⟩
    | ok first =>
      rw [foundLeft] at ihLeft
      cases foundRight : right.eval with
      | error fault =>
        rw [foundRight] at ihRight
        apply ihRight.fails
        intro type typed
        obtain ⟨-, given, -, typedRight, -⟩ := hasType_binary_iff.mp typed
        exact ⟨given, typedRight⟩
      | ok second =>
        rw [foundRight] at ihRight
        exact ihLeft.binary op line ihRight

theorem eval_ok_of_hasType {expr : Expr} {type : ValueType} (typed : HasType expr type) :
    ∃ value, expr.eval = .ok value ∧ value.type = type := by
  have settled := eval_settles expr
  cases found : expr.eval with
  | ok value =>
    rw [found] at settled
    exact ⟨value, rfl, (settled type).mp typed⟩
  | error fault =>
    rw [found] at settled
    exact absurd typed (settled.2 type)

theorem Alike.hasType_iff {expr other : Expr} (alike : Alike expr other) (type : ValueType) :
    HasType expr type ↔ HasType other type := by
  induction alike generalizing type with
  | literal same => rw [hasType_literal_iff, hasType_literal_iff, same]
  | grouping _ ih => rw [hasType_grouping_iff, hasType_grouping_iff, ih]
  | unary _ ih => simp only [hasType_unary_iff, ih]
  | binary _ _ ihFirst ihSecond => simp only [hasType_binary_iff, ihFirst, ihSecond]

/-- Evaluation is sound and complete for the types. A tree gives a value exactly if it has a type,
the value is then of that type and of no other, and a tree without a type ends in the runtime fault
of an operator that refuses its operands. So literals of the same types never change whether a tree
gives a value, whatever numbers they are. -/
theorem eval_ok_iff_hasType (expr : Expr) :
    ((∃ value, expr.eval = .ok value) ↔ ∃ type, HasType expr type) ∧
    (∀ value, expr.eval = .ok value → ∀ type, HasType expr type ↔ value.type = type) ∧
    ((∀ type, ¬ HasType expr type) →
      ∃ fault, expr.eval = .error fault ∧ fault.problem.stage = .runtime ∧ Refused fault) ∧
    (∀ other, Alike expr other →
      ((∃ value, expr.eval = .ok value) ↔ ∃ value, other.eval = .ok value)) := by
  have typable : ∀ expr : Expr, (∃ value, expr.eval = .ok value) ↔ ∃ type, HasType expr type := by
    intro expr
    constructor
    · rintro ⟨value, gives⟩
      have settled := eval_settles expr
      rw [gives] at settled
      exact ⟨value.type, (settled value.type).mpr rfl⟩
    · rintro ⟨type, typed⟩
      obtain ⟨value, gives, -⟩ := eval_ok_of_hasType typed
      exact ⟨value, gives⟩
  refine ⟨typable expr, ?_, ?_, ?_⟩
  · intro value gives
    have settled := eval_settles expr
    rwa [gives] at settled
  · intro untyped
    have settled := eval_settles expr
    cases found : expr.eval with
    | ok value =>
      rw [found] at settled
      exact absurd ((settled value.type).mpr rfl) (untyped value.type)
    | error fault =>
      rw [found] at settled
      exact ⟨fault, rfl, rfl, settled.1⟩
  · intro other alike
    simp only [typable, alike.hasType_iff]

/-- The quotient of two zeros, on line 1. -/
def zeroQuotient : Expr :=
  .binary .divide (.literal (.number (.finite false 0))) (.literal (.number (.finite false 0))) 1

/-- The tree of `-(0 / 0) != other`, on two lines. -/
def comparedQuotient (other : Value) : Expr :=
  .binary .notEqual (.unary .negate (.grouping zeroQuotient) 1) (.literal other) 2

theorem eval_comparedQuotient :
    HasType (comparedQuotient (.number .nan)) .boolean ∧
    (∃ value, (comparedQuotient (.number .nan)).eval = .ok value ∧ value.type = .boolean) ∧
    (∃ value, (comparedQuotient (.number (.infinite true))).eval = .ok value) ∧
    ∃ fault, (comparedQuotient .nil).eval = .error fault ∧ Refused fault := by
  have quotient : HasType zeroQuotient .number :=
    .binary .literal .literal (show (.number, .number, .number) ∈ binarySignatures .divide by decide)
  have negated : HasType (.unary .negate (.grouping zeroQuotient) 1) .number :=
    .unary (.grouping quotient) (by decide)
  have typed : HasType (comparedQuotient (.number .nan)) .boolean := .binary negated .literal (by decide)
  have alike : Alike (comparedQuotient (.number .nan)) (comparedQuotient (.number (.infinite true))) :=
    .binary (.unary (.grouping (.binary (.literal rfl) (.literal rfl)))) (.literal rfl)
  have untyped : ∀ type, ¬ HasType (comparedQuotient .nil) type := by
    intro type typed
    obtain ⟨first, second, -, nil, admitted⟩ := hasType_binary_iff.mp typed
    cases hasType_literal_iff.mp nil
    simp [binarySignatures, Value.type] at admitted
  obtain ⟨typable, types, -, values⟩ := eval_ok_iff_hasType (comparedQuotient (.number .nan))
  obtain ⟨value, gives⟩ := typable.mpr ⟨_, typed⟩
  obtain ⟨fault, fails, -, refused⟩ := (eval_ok_iff_hasType (comparedQuotient .nil)).2.2.1 untyped
  exact ⟨typed, ⟨value, gives, (types value gives _).mp typed⟩, (values _ alike).mp ⟨value, gives⟩,
    fault, fails, refused⟩

end Lox.Proofs
