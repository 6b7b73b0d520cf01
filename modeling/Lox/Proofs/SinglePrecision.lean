import Lox.Proofs.EvaluationOrder
import Lox.Proofs.ReadBack

/-! Numbers are singles everywhere. A scan makes no other numerals, every operation of arithmetic
rounds its result, and changing the sign of a single gives a single, although nothing is rounded
there. So no part of a tree of singles has any other value. -/

namespace Lox.Proofs

theorem Literals.postorder {property : Value → Prop} {expr : Expr} (literals : Literals property expr) :
    ∀ part ∈ postorder expr, Literals property part := by
  apply forall_postorder _ _ _ literals
  · intro inner all
    exact all
  · intro op operand line all
    exact all
  · intro op left right line all
    exact all

theorem numeral_single {source : String} {token : Token} (member : token ∈ (scan source).tokens)
    (number : token.kind = .number) : ∃ x, token.literal = .number x ∧ x.IsSingle := by
  rcases (cuts_segments source.toList).mem_tokens member with last | ⟨kind, taken, rest, line, -, rfl⟩
  · cases number.symm.trans last
  · obtain rfl : kind = .number := number
    exact ⟨_, rfl, isSingle_toSingle _⟩

theorem Runs.single {reporter : Reporter} {source : String} {run : Run} {x : Number} (runs : Runs reporter source run)
    (value : run.outcome.value = .number x) : x.IsSingle := by
  cases runs with
  | scanFailed | parseFailed | evalFailed => cases value
  | evaluated _ _ gives ends =>
    cases value
    exact run_single gives ends

/-- Where all literals are singles, every part of a tree that has a number for its value has a single.
All numerals of a scan are singles, and so is the number that a run gives. -/
theorem numbers_single :
    (∀ expr, Literals SingleValue expr → ∀ part ∈ postorder expr, ∀ x,
      part.eval = .ok (.number x) → x.IsSingle) ∧
    (∀ source, ∀ token ∈ (scan source).tokens, token.kind = .number →
      ∃ x, token.literal = .number x ∧ x.IsSingle) ∧
    (∀ reporter source x, (runWith reporter source).outcome.ok = true →
      (runWith reporter source).outcome.value = .number x → x.IsSingle) := by
  refine ⟨?_, ?_, ?_⟩
  · intro expr literals part member x gives
    exact eval_single (literals.postorder part member) gives
  · intro source token member number
    exact numeral_single member number
  · intro reporter source x _ value
    exact (runWith_runs reporter source).single value

/-- The tree of `-(x / 2)` for the number of the given units. -/
def negatedHalf (units : Nat) : Expr :=
  .unary .negate
    (.grouping (.binary .divide (.literal (.number (.finite false units)))
      (.literal (.number (.finite false (Nat.pow 2 1075)))) 1)) 1

/-- Half of the least single is rounded to zero before its sign is changed. A double that is no single
and has no operation but the sign applied to it stays what it is. -/
theorem numbers_single_negated :
    (Literals SingleValue (negatedHalf (Nat.pow 2 925)) ∧
      ∃ x, (negatedHalf (Nat.pow 2 925)).eval = .ok (.number x) ∧ x = .finite true 0 ∧ x.IsSingle) ∧
    (∃ token ∈ (scan "0.1").tokens, ∃ x, token.literal = .number x ∧ x.IsSingle) ∧
    (∃ x, (runWith {} "-(1 / 3)").outcome.value = .number x ∧ x.IsSingle) ∧
    (Expr.unary .negate (.literal (.number (.finite false 1))) 1).eval = .ok (.number (.finite true 1)) ∧
      ¬ (Number.finite true 1).IsSingle := by
  obtain ⟨trees, numerals, runs⟩ := numbers_single
  refine ⟨?_, ?_, ?_, rfl, ?_⟩
  · have least : (Number.finite false (Nat.pow 2 925)).IsSingle := by
      apply isSingle_power <;> decide
    have two : (Number.finite false (Nat.pow 2 1075)).IsSingle := by
      apply isSingle_power <;> decide
    have literals : Literals SingleValue (negatedHalf (Nat.pow 2 925)) := ⟨least, two⟩
    have gives : (negatedHalf (Nat.pow 2 925)).eval = .ok (.number (.finite true 0)) := by decide +kernel
    exact ⟨literals, _, gives, rfl, trees _ literals _ (mem_postorder_self _) _ gives⟩
  · have first : ∃ token, (scan "0.1").tokens.head? = some token ∧ token.kind = .number := by decide +kernel
    obtain ⟨token, head, number⟩ := first
    have member := List.mem_of_head? head
    exact ⟨token, member, numerals _ token member number⟩
  · have fine : (runWith {} "-(1 / 3)").outcome.ok = true := by decide +kernel
    have number : (runWith {} "-(1 / 3)").outcome.value.isNumber = true := by decide +kernel
    cases value : (runWith {} "-(1 / 3)").outcome.value with
    | number x => exact ⟨x, rfl, runs _ _ x fine value⟩
    | nil | boolean _ | string _ =>
      rw [value] at number
      cases number
  · decide +kernel

end Lox.Proofs
