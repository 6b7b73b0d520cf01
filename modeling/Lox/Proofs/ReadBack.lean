import Lox.Proofs.Placement
import Lox.Proofs.Running

/-! What a run prints, a run reads back. Every number that an evaluation gives is a single, so its
text is a numeral, or a sign and a numeral, that stands for the very same number. -/

namespace Lox.Proofs

/-- The values whose texts are expressions. -/
def Legible : Value → Prop
  | .nil | .boolean _ => True
  | .string _ => False
  | .number x => x.isFinite = true

def SingleValue : Value → Prop
  | .number x => x.IsSingle
  | _ => True

theorem unary_single {op : UnaryOp} {operand result : Value} (single : SingleValue operand)
    (gives : op.result? operand = some result) : SingleValue result := by
  unfold UnaryOp.result? at gives
  split at gives
  · cases gives
    trivial
  · cases gives
    exact isSingle_neg single
  · cases gives

theorem binary_single {op : BinaryOp} {left right result : Value}
    (gives : op.result? left right = some result) : SingleValue result := by
  unfold BinaryOp.result? at gives
  split at gives <;> cases gives <;> simp only [SingleValue, isSingle_toSingle]

theorem eval_single {expr : Expr} {value : Value} (literals : Literals SingleValue expr)
    (gives : expr.eval = .ok value) : SingleValue value := by
  induction expr generalizing value with
  | literal found =>
    cases gives
    exact literals
  | grouping inner ih => exact ih literals gives
  | unary op operand line ih =>
    rw [Expr.eval] at gives
    split at gives
    next => cases gives
    next found evaluated =>
      split at gives
      next result same =>
        cases gives
        exact unary_single (ih literals evaluated) same
      next => cases gives
  | binary op left right line _ _ =>
    rw [Expr.eval] at gives
    split at gives
    next => cases gives
    next =>
      split at gives
      next => cases gives
      next =>
        split at gives
        next result same =>
          cases gives
          exact binary_single same
        next => cases gives

theorem run_single {source : String} {expr : Expr} {reporter : Reporter} {value : Value}
    (gives : (Parser.attempt { tokens := (scan source).tokens } reporter).1 = .ok (some expr))
    (evaluated : expr.eval = .ok value) : SingleValue value := by
  have literals := attempt_literals gives
  refine eval_single (literals.and (fun value spelled _ => ?_) literals) evaluated
  rcases spelled with spelled | rfl
  · match value, spelled with
    | .nil, _ | .boolean _, _ | .string _, _ => trivial
    | .number (.finite false units), single => exact single
  · rfl

/-- The expression that the text of a legible value is. -/
def spelling : Value → Expr
  | .number (.finite true units) => .unary .negate (.literal (.number (.finite false units))) 1
  | value => .literal value

theorem spelling_eval (value : Value) : (spelling value).eval = .ok value := by
  unfold spelling
  split <;> rfl

theorem spelling_stratified (value : Value) : Stratified (spelling value) := by
  unfold spelling
  split
  · exact ⟨trivial, Nat.le_succ 5⟩
  · trivial

theorem text_negative (units : Nat) :
    (Number.finite true units).text = "-" ++ (Number.finite false units).text := by
  rw [Number.text, Number.text, String.ofList_append, String.ofList_append, ← String.append_assoc]
  rfl

theorem spelling_text {value : Value} (legible : Legible value) : (spelling value).infixText = value.text := by
  match value with
  | .nil | .boolean _ | .number (.finite false units) => rfl
  | .number (.finite true units) => exact (text_negative units).symm
  | .string _ | .number .nan | .number (.infinite _) => cases legible

theorem spelling_printable {value : Value} (legible : Legible value) (single : SingleValue value) :
    Printable (spelling value) := by
  match value with
  | .nil | .boolean _ => trivial
  | .number (.finite false units) => exact single
  | .number (.finite true units) =>
    have positive : (Number.finite false units).IsSingle := isSingle_magnitude single
    exact positive
  | .string _ | .number .nan | .number (.infinite _) => cases legible

theorem run_text {value : Value} (legible : Legible value) (single : SingleValue value) :
    (run value.text).outcome = { value } := by
  obtain ⟨found, reads, same⟩ := infixText_readsAs (spelling_printable legible single)
  rw [spelling_text legible] at reads
  have evaluated := eval_ok_of_eraseLines (same.mpr (spelling_stratified value)) (spelling_eval value)
  rw [reads.run_outcome, conclusion, evaluated]

/-- Running the text of an outcome ends as the run that printed it did. -/
theorem run_text_idempotent (source : String) (fine : (run source).outcome.ok = true)
    (legible : Legible (run source).outcome.value) :
    (run (run source).outcome.text).outcome.ok = true ∧
      (run (run source).outcome.text).outcome.value = (run source).outcome.value ∧
      (run (run source).outcome.text).outcome.text = (run source).outcome.text := by
  obtain ⟨expr, value, parsed, evaluated, ends⟩ := run_ok fine
  rw [ends] at legible ⊢
  have again : (run (Outcome.text { value })).outcome = { value } := run_text legible (run_single parsed evaluated)
  rw [again]
  exact ⟨rfl, rfl, rfl⟩

theorem run_negativeZero_idempotent :
    (run "0 / -1").outcome.ok = true ∧ (run "0 / -1").outcome.value = .number (.finite true 0) ∧
      (run (run "0 / -1").outcome.text).outcome.ok = true ∧
      (run (run "0 / -1").outcome.text).outcome.value = .number (.finite true 0) ∧
      (run (run "0 / -1").outcome.text).outcome.text = (run "0 / -1").outcome.text := by
  have fine : (run "0 / -1").outcome.ok = true := by decide +kernel
  have value : (run "0 / -1").outcome.value = .number (.finite true 0) := by decide +kernel
  have legible : Legible (run "0 / -1").outcome.value := by
    rw [value]
    rfl
  obtain ⟨again, same, text⟩ := run_text_idempotent "0 / -1" fine legible
  rw [value] at same
  exact ⟨fine, value, again, same, text⟩

end Lox.Proofs
