import Lox.Proofs.Typing

/-! The order of evaluation. A tree is evaluated node by node in post-order, and the first node that
has no value is an operator whose operands have values that it does not admit. The fault of the whole
is the fault of that node, so nothing after it in the order has a part in it. -/

namespace Lox.Proofs

/-- The nodes of a tree from left to right, each after its operands and given by its subtree. -/
def postorder : Expr → List Expr
  | .literal value => [.literal value]
  | .grouping inner => postorder inner ++ [.grouping inner]
  | .unary op operand line => postorder operand ++ [.unary op operand line]
  | .binary op left right line => postorder left ++ (postorder right ++ [.binary op left right line])

def Evaluates (expr : Expr) : Prop := ∃ value, expr.eval = .ok value

/-- The node has its place at the index, and every node before it has a value. -/
structure Reached (nodes : List Expr) (index : Nat) (node : Expr) : Prop where
  found : nodes[index]? = some node
  before : ∀ earlier ∈ nodes.take index, Evaluates earlier

/-- The operands of the node have values, its operator admits no operands of their types, and the
problem names the operator, the values and the line of the node. -/
inductive Refuses : Expr → Problem → Prop where
  | unary {op : UnaryOp} {operand : Expr} {line : Int} {value : Value} (given : operand.eval = .ok value)
      (refused : ∀ type, (value.type, type) ∉ unarySignatures op) :
      Refuses (.unary op operand line)
        ⟨.runtime, "Cannot perform '" ++ op.name ++ "' on operand '" ++ value.text ++ "'", some line, ""⟩
  | binary {op : BinaryOp} {left right : Expr} {line : Int} {first second : Value}
      (givenLeft : left.eval = .ok first) (givenRight : right.eval = .ok second)
      (refused : ∀ type, (first.type, second.type, type) ∉ binarySignatures op) :
      Refuses (.binary op left right line)
        ⟨.runtime, "Cannot perform '" ++ op.name ++ "' on operands '" ++ first.text ++ "' and '" ++ second.text ++ "'",
          some line, ""⟩

/-- At the index stands an operator that refuses its operands, and every node before it has a value. -/
def FirstRefusal (expr : Expr) (index : Nat) (problem : Problem) : Prop :=
  ∃ node, Reached (postorder expr) index node ∧ Refuses node problem

/-- `Replaced index expr other`: on the way from the root to the node at the index, every subtree to
the right of the way is replaced by any other. These are the nodes after it but for its ancestors. -/
inductive Replaced : Nat → Expr → Expr → Prop where
  | here {expr : Expr} : Replaced ((postorder expr).length - 1) expr expr
  | grouping {index : Nat} {inner inner' : Expr} (within : Replaced index inner inner') :
      Replaced index (.grouping inner) (.grouping inner')
  | unary {index : Nat} {op : UnaryOp} {operand operand' : Expr} {line : Int}
      (within : Replaced index operand operand') :
      Replaced index (.unary op operand line) (.unary op operand' line)
  | left {index : Nat} {op : BinaryOp} {left left' right right' : Expr} {line : Int}
      (within : Replaced index left left') :
      Replaced index (.binary op left right line) (.binary op left' right' line)
  | right {index : Nat} {op : BinaryOp} {left right right' : Expr} {line : Int}
      (within : Replaced index right right') :
      Replaced ((postorder left).length + index) (.binary op left right line) (.binary op left right' line)

/-- Both lists go on past the index, and they are the same through it. -/
structure AgreeThrough (index : Nat) (nodes others : List Expr) : Prop where
  inside : index < nodes.length
  inside' : index < others.length
  same : others.take (index + 1) = nodes.take (index + 1)

section
variable {op : UnaryOp} {op' : BinaryOp} {operand left right : Expr} {line : Int} {value first second : Value}
  {fault : EvalFault}

theorem eval_unary_error (fails : operand.eval = .error fault) :
    (Expr.unary op operand line).eval = .error fault := by
  rw [Expr.eval, fails]

theorem eval_unary_cases (op : UnaryOp) (line : Int) (given : operand.eval = .ok value) :
    (∃ result, op.result? value = some result ∧ (Expr.unary op operand line).eval = .ok result) ∨
      op.result? value = none ∧ (Expr.unary op operand line).eval = .error (.unary op value line) := by
  rw [Expr.eval, given]
  dsimp only
  cases op.result? value with
  | some result => exact .inl ⟨result, rfl, rfl⟩
  | none => exact .inr ⟨rfl, rfl⟩

theorem eval_left_error (fails : left.eval = .error fault) :
    (Expr.binary op' left right line).eval = .error fault := by
  rw [Expr.eval, fails]

theorem eval_right_error (given : left.eval = .ok first) (fails : right.eval = .error fault) :
    (Expr.binary op' left right line).eval = .error fault := by
  rw [Expr.eval, given, fails]

theorem eval_binary_cases (op : BinaryOp) (line : Int) (givenLeft : left.eval = .ok first)
    (givenRight : right.eval = .ok second) :
    (∃ result, op.result? first second = some result ∧ (Expr.binary op left right line).eval = .ok result) ∨
      op.result? first second = none ∧
        (Expr.binary op left right line).eval = .error (.binary op first second line) := by
  rw [Expr.eval, givenLeft, givenRight]
  dsimp only
  cases op.result? first second with
  | some result => exact .inl ⟨result, rfl, rfl⟩
  | none => exact .inr ⟨rfl, rfl⟩

end

section
variable {expr other node : Expr} {nodes first second : List Expr} {index : Nat} {fault : EvalFault} {problem : Problem}

theorem evaluates_or_fails (expr : Expr) : Evaluates expr ∨ ∃ fault, expr.eval = .error fault := by
  cases found : expr.eval with
  | ok value => exact .inl ⟨value, found⟩
  | error fault => exact .inr ⟨fault, rfl⟩

theorem Evaluates.not_fails (evaluates : Evaluates expr) : expr.eval ≠ .error fault := by
  obtain ⟨value, gives⟩ := evaluates
  intro fails
  cases gives.symm.trans fails

theorem mem_postorder_self (expr : Expr) : expr ∈ postorder expr := by
  cases expr <;> simp [postorder]

/-- What a node hands down to its operands, the root hands down to every node. -/
theorem forall_postorder {property : Expr → Prop} (grouping : ∀ inner, property (.grouping inner) → property inner)
    (unary : ∀ op operand line, property (.unary op operand line) → property operand)
    (binary : ∀ op left right line, property (.binary op left right line) → property left ∧ property right)
    (root : property expr) : ∀ node ∈ postorder expr, property node := by
  induction expr with
  | literal value =>
    intro node member
    rw [List.mem_singleton.mp member]
    exact root
  | grouping inner ih =>
    intro node member
    rcases List.mem_append.mp member with within | last
    · exact ih (grouping inner root) node within
    · rw [List.mem_singleton.mp last]
      exact root
  | unary op operand line ih =>
    intro node member
    rcases List.mem_append.mp member with within | last
    · exact ih (unary op operand line root) node within
    · rw [List.mem_singleton.mp last]
      exact root
  | binary op left right line ihLeft ihRight =>
    intro node member
    obtain ⟨first, second⟩ := binary op left right line root
    rcases List.mem_append.mp member with within | later
    · exact ihLeft first node within
    rcases List.mem_append.mp later with within | last
    · exact ihRight second node within
    · rw [List.mem_singleton.mp last]
      exact root

theorem Evaluates.postorder (evaluates : Evaluates expr) : ∀ node ∈ postorder expr, Evaluates node := by
  apply forall_postorder _ _ _ evaluates
  · intro inner whole
    exact whole
  · intro op operand line whole
    rcases evaluates_or_fails operand with given | ⟨fault, fails⟩
    · exact given
    · exact absurd (eval_unary_error fails) whole.not_fails
  · intro op left right line whole
    rcases evaluates_or_fails left with ⟨first, givenLeft⟩ | ⟨fault, fails⟩
    · rcases evaluates_or_fails right with givenRight | ⟨fault, fails⟩
      · exact ⟨⟨first, givenLeft⟩, givenRight⟩
      · exact absurd (eval_right_error givenLeft fails) whole.not_fails
    · exact absurd (eval_left_error fails) whole.not_fails

theorem reached_singleton_iff : Reached [expr] index node ↔ index = 0 ∧ node = expr := by
  constructor
  · intro reached
    obtain ⟨inside, same⟩ := List.getElem?_eq_some_iff.mp reached.found
    obtain rfl : index = 0 := Nat.lt_one_iff.mp inside
    exact ⟨rfl, same.symm⟩
  · rintro ⟨rfl, rfl⟩
    exact ⟨rfl, by simp⟩

theorem reached_append_iff : Reached (first ++ second) index node ↔ Reached first index node ∨
    (∀ earlier ∈ first, Evaluates earlier) ∧ ∃ more, index = first.length + more ∧ Reached second more node := by
  constructor
  · intro ⟨found, before⟩
    rcases Nat.lt_or_ge index first.length with inside | past
    · rw [List.getElem?_append_left inside] at found
      rw [List.take_append_of_le_length (Nat.le_of_lt inside)] at before
      exact .inl ⟨found, before⟩
    · obtain ⟨more, rfl⟩ := Nat.exists_eq_add_of_le past
      rw [List.getElem?_append_right past, Nat.add_sub_cancel_left] at found
      rw [List.take_length_add_append] at before
      refine .inr ⟨fun earlier member => before earlier (List.mem_append_left _ member), more, rfl, found, ?_⟩
      exact fun earlier member => before earlier (List.mem_append_right _ member)
  · rintro (⟨found, before⟩ | ⟨whole, more, rfl, found, before⟩)
    · obtain ⟨inside, -⟩ := List.getElem?_eq_some_iff.mp found
      refine ⟨?_, ?_⟩
      · rwa [List.getElem?_append_left inside]
      · rwa [List.take_append_of_le_length (Nat.le_of_lt inside)]
    · refine ⟨?_, ?_⟩
      · rwa [List.getElem?_append_right (Nat.le_add_right _ _), Nat.add_sub_cancel_left]
      · rw [List.take_length_add_append]
        intro earlier member
        rcases List.mem_append.mp member with within | later
        · exact whole earlier within
        · exact before earlier later

theorem Reached.of_take (reached : Reached nodes index node) {others : List Expr}
    (same : others.take (index + 1) = nodes.take (index + 1)) : Reached others index node := by
  obtain ⟨found, before⟩ := reached
  constructor
  · rw [← List.getElem?_take_of_lt (Nat.lt_succ_self index), same, List.getElem?_take_of_lt (Nat.lt_succ_self index)]
    exact found
  · have shorter : others.take index = nodes.take index := by
      have both := congrArg (List.take index) same
      rwa [List.take_take, List.take_take, Nat.min_eq_left (Nat.le_succ index)] at both
    rw [shorter]
    exact before

/-- The fault of the first node without a value is the fault of the whole. -/
theorem Reached.eval_error (reached : Reached (postorder expr) index node) (fails : node.eval = .error fault) :
    expr.eval = .error fault := by
  induction expr generalizing index with
  | literal value =>
    obtain ⟨-, rfl⟩ := reached_singleton_iff.mp reached
    exact fails
  | grouping inner ih =>
    rcases reached_append_iff.mp reached with within | ⟨-, more, -, last⟩
    · exact ih within
    · obtain ⟨-, rfl⟩ := reached_singleton_iff.mp last
      exact fails
  | unary op operand line ih =>
    rcases reached_append_iff.mp reached with within | ⟨-, more, -, last⟩
    · exact eval_unary_error (ih within)
    · obtain ⟨-, rfl⟩ := reached_singleton_iff.mp last
      exact fails
  | binary op left right line ihLeft ihRight =>
    rcases reached_append_iff.mp reached with within | ⟨whole, more, -, later⟩
    · exact eval_left_error (ihLeft within)
    obtain ⟨value, given⟩ := whole left (mem_postorder_self left)
    rcases reached_append_iff.mp later with within | ⟨-, more, -, last⟩
    · exact eval_right_error given (ihRight within)
    · obtain ⟨-, rfl⟩ := reached_singleton_iff.mp last
      exact fails

theorem Refuses.eval_error (refuses : Refuses node problem) :
    ∃ fault, node.eval = .error fault ∧ fault.problem = problem := by
  cases refuses with
  | @unary op operand line value given refused =>
    rcases eval_unary_cases op line given with ⟨result, gives, -⟩ | ⟨-, fails⟩
    · exact absurd ((unary_result gives result.type).mpr rfl) (refused result.type)
    · exact ⟨_, fails, rfl⟩
  | @binary op left right line first second givenLeft givenRight refused =>
    rcases eval_binary_cases op line givenLeft givenRight with ⟨result, gives, -⟩ | ⟨-, fails⟩
    · exact absurd ((binary_result gives result.type).mpr rfl) (refused result.type)
    · exact ⟨_, fails, rfl⟩

theorem AgreeThrough.append {first' : List Expr} (agree : AgreeThrough index first first') (second second' : List Expr) :
    AgreeThrough index (first ++ second) (first' ++ second') := by
  obtain ⟨inside, inside', same⟩ := agree
  refine ⟨?_, ?_, ?_⟩
  · rw [List.length_append]
    exact Nat.lt_add_right _ inside
  · rw [List.length_append]
    exact Nat.lt_add_right _ inside'
  · rw [List.take_append_of_le_length inside, List.take_append_of_le_length inside', same]

theorem AgreeThrough.after {second' : List Expr} (first : List Expr) (agree : AgreeThrough index second second') :
    AgreeThrough (first.length + index) (first ++ second) (first ++ second') := by
  obtain ⟨inside, inside', same⟩ := agree
  refine ⟨?_, ?_, ?_⟩
  · rw [List.length_append]
    exact Nat.add_lt_add_left inside _
  · rw [List.length_append]
    exact Nat.add_lt_add_left inside' _
  · rw [Nat.add_assoc, List.take_length_add_append, List.take_length_add_append, same]

/-- What is replaced stands after the node at the index. -/
theorem Replaced.agree (replaced : Replaced index expr other) :
    AgreeThrough index (postorder expr) (postorder other) := by
  induction replaced with
  | @here expr =>
    have some := List.length_pos_of_mem (mem_postorder_self expr)
    exact ⟨Nat.sub_one_lt_of_lt some, Nat.sub_one_lt_of_lt some, rfl⟩
  | grouping _ ih => exact ih.append _ _
  | unary _ ih => exact ih.append _ _
  | left _ ih => exact ih.append _ _
  | @right _ _ left _ _ _ _ ih => exact (ih.append _ _).after (postorder left)

theorem exists_firstRefusal (fails : expr.eval = .error fault) : ∃ index, FirstRefusal expr index fault.problem := by
  induction expr generalizing fault with
  | literal value => cases fails
  | grouping inner ih =>
    obtain ⟨index, node, reached, refuses⟩ := ih fails
    exact ⟨index, node, reached_append_iff.mpr (.inl reached), refuses⟩
  | unary op operand line ih =>
    cases given : operand.eval with
    | error fault' =>
      cases (eval_unary_error given).symm.trans fails
      obtain ⟨index, node, reached, refuses⟩ := ih given
      exact ⟨index, node, reached_append_iff.mpr (.inl reached), refuses⟩
    | ok value =>
      rcases eval_unary_cases op line given with ⟨result, -, gives⟩ | ⟨refused, fails'⟩
      · cases gives.symm.trans fails
      · cases fails'.symm.trans fails
        have whole := Evaluates.postorder ⟨value, given⟩
        refine ⟨_, _, reached_append_iff.mpr (.inr ⟨whole, 0, rfl, reached_singleton_iff.mpr ⟨rfl, rfl⟩⟩), ?_⟩
        exact .unary given (unary_refused refused)
  | binary op left right line ihLeft ihRight =>
    cases givenLeft : left.eval with
    | error fault' =>
      cases (eval_left_error givenLeft).symm.trans fails
      obtain ⟨index, node, reached, refuses⟩ := ihLeft givenLeft
      exact ⟨index, node, reached_append_iff.mpr (.inl reached), refuses⟩
    | ok first =>
      have whole := Evaluates.postorder ⟨first, givenLeft⟩
      -- From here on the left operand is behind, and what is reached stands in the rest.
      have past {more : Nat} {node : Expr} (reached : Reached (postorder right ++ [.binary op left right line]) more node) :
          Reached (postorder (.binary op left right line)) ((postorder left).length + more) node :=
        reached_append_iff.mpr (.inr ⟨whole, more, rfl, reached⟩)
      cases givenRight : right.eval with
      | error fault' =>
        cases (eval_right_error givenLeft givenRight).symm.trans fails
        obtain ⟨index, node, reached, refuses⟩ := ihRight givenRight
        exact ⟨_, node, past (reached_append_iff.mpr (.inl reached)), refuses⟩
      | ok second =>
        rcases eval_binary_cases op line givenLeft givenRight with ⟨result, -, gives⟩ | ⟨refused, fails'⟩
        · cases gives.symm.trans fails
        · cases fails'.symm.trans fails
          have whole' := Evaluates.postorder ⟨second, givenRight⟩
          refine ⟨_, _, past (reached_append_iff.mpr (.inr ⟨whole', 0, rfl, reached_singleton_iff.mpr ⟨rfl, rfl⟩⟩)), ?_⟩
          exact .binary givenLeft givenRight (binary_refused refused)

/-- No two places of the order are both the first. -/
theorem FirstRefusal.unique {index' : Nat} {problem' : Problem} (refusal : FirstRefusal expr index problem)
    (refusal' : FirstRefusal expr index' problem') : index ≤ index' := by
  obtain ⟨node, reached, -⟩ := refusal
  obtain ⟨node', reached', refuses⟩ := refusal'
  apply Nat.le_of_not_lt
  intro earlier
  obtain ⟨fault, fails, -⟩ := refuses.eval_error
  have member : node' ∈ (postorder expr).take index := by
    apply List.mem_of_getElem?
    rw [List.getElem?_take_of_lt earlier]
    exact reached'.found
  exact (reached.before node' member).not_fails fails

theorem FirstRefusal.eval_error (refusal : FirstRefusal expr index problem) (fails : expr.eval = .error fault)
    (same : (postorder other).take (index + 1) = (postorder expr).take (index + 1)) :
    other.eval = .error fault := by
  obtain ⟨node, reached, refuses⟩ := refusal
  obtain ⟨fault', fails', -⟩ := refuses.eval_error
  cases (reached.eval_error fails').symm.trans fails
  exact (reached.of_take same).eval_error fails'

end

/-- The fault that a tree ends with is that of the first operator, in post-order, that refuses its
operands: there is exactly one place where an operator does and all nodes before it have values, and
the problem is told by that operator, its line and its operands. Nothing to the right of the place or
above it matters. Any subtrees may stand to the right, and so may any tree that begins with the same
nodes in post-order. -/
theorem eval_fault_first (expr : Expr) (fault : EvalFault) (fails : expr.eval = .error fault) :
    ∃ index, FirstRefusal expr index fault.problem ∧
      (∀ other problem, FirstRefusal expr other problem → other = index) ∧
      (∀ other, Replaced index expr other → other.eval = .error fault) ∧
      (∀ other, (postorder other).take (index + 1) = (postorder expr).take (index + 1) →
        other.eval = .error fault) := by
  obtain ⟨index, refusal⟩ := exists_firstRefusal fails
  refine ⟨index, refusal, ?_, ?_, ?_⟩
  · intro other problem refusal'
    exact Nat.le_antisymm (refusal'.unique refusal) (refusal.unique refusal')
  · intro other replaced
    exact refusal.eval_error fails replaced.agree.same
  · intro other same
    exact refusal.eval_error fails same

/-- The tree of `true * ("a" == nil) + last`, over three lines. -/
def spoiltSum (last : Expr) : Expr :=
  .binary .plus
    (.binary .multiply (.literal (.boolean true))
      (.grouping (.binary .equal (.literal (.string "a")) (.literal .nil) 2)) 1)
    last 3

theorem eval_spoiltSum :
    FirstRefusal (spoiltSum (.literal .nil)) 3
      ⟨.runtime, "Cannot perform 'Equal' on operands 'a' and 'nil'", some 2, ""⟩ ∧
    ∀ last, (spoiltSum last).eval = .error (.binary .equal (.string "a") .nil 2) := by
  have fails : (spoiltSum (.literal .nil)).eval = .error (.binary .equal (.string "a") .nil 2) := rfl
  have told : (EvalFault.binary .equal (.string "a") .nil 2).problem =
      ⟨.runtime, "Cannot perform 'Equal' on operands 'a' and 'nil'", some 2, ""⟩ := by decide +kernel
  have refusal : FirstRefusal (spoiltSum (.literal .nil)) 3 (EvalFault.binary .equal (.string "a") .nil 2).problem := by
    refine ⟨_, ⟨rfl, ?_⟩, .binary rfl rfl (by simp [binarySignatures, Value.type])⟩
    intro earlier member
    have member' : earlier ∈ [Expr.literal (.boolean true), .literal (.string "a"), .literal .nil] := member
    simp only [List.mem_cons, List.not_mem_nil, or_false] at member'
    rcases member' with rfl | rfl | rfl <;> exact ⟨_, rfl⟩
  obtain ⟨index, _, unique, replaced, -⟩ := eval_fault_first (spoiltSum (.literal .nil)) _ fails
  obtain rfl : 3 = index := unique 3 _ refusal
  rw [told] at refusal
  refine ⟨refusal, fun last => replaced _ ?_⟩
  have here := @Replaced.here (.binary .equal (.literal (.string "a")) (.literal .nil) 2)
  exact .left (@Replaced.right 2 _ (.literal (.boolean true)) _ _ _ (.grouping here))

end Lox.Proofs
