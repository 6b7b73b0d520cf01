import Mathlib.Order.WithBot
import Lox.Proofs.ReadBack
import Lox.Proofs.SingleArithmetic

/-! What the binary operators mean. Arithmetic is exact and rounded once; numbers are compared by
their places on the line of rationals with its two ends, where both zeros are one place and a NaN has
none; strings are joined end to end. Values are equal if they are the same, but for the numbers of one
place. -/

namespace Lox.Proofs

/-- The line of rationals with its two ends. -/
abbrev Place := WithBot (WithTop ℚ)

def place? : Number → Option Place
  | .nan => none
  | .infinite true => some ⊥
  | .infinite false => some ⊤
  | .finite negative units => some ((amount negative units : ℚ) : WithTop ℚ)

/-- Both numbers have places, and these stand in the relation. -/
def Meets (relation : Place → Place → Prop) (x y : Number) : Prop :=
  ∃ p q, place? x = some p ∧ place? y = some q ∧ relation p q

/-- The operators that compare numbers and the relations that they test. -/
inductive Orders : BinaryOp → (Place → Place → Prop) → Prop where
  | less : Orders .less (· < ·)
  | lessOrEqual : Orders .lessOrEqual (· ≤ ·)
  | greater : Orders .greater (· > ·)
  | greaterOrEqual : Orders .greaterOrEqual (· ≥ ·)

/-- Equal values. A NaN has no place, so it is not even equal to itself. -/
inductive Same : Value → Value → Prop where
  | number {x y : Number} (meets : Meets (· = ·) x y) : Same (.number x) (.number y)
  | string {s : String} : Same (.string s) (.string s)
  | boolean {b : Bool} : Same (.boolean b) (.boolean b)

/-- `Applies op first second value`: the value is what the operator means for these operands. -/
inductive Applies : BinaryOp → Value → Value → Value → Prop where
  | arithmetic {op : BinaryOp} {combine : Exact → Exact → Exact} {x y z : Number} (arithmetic : Arithmetic op combine)
      (rounds : Rounds .single (combine (exact x) (exact y)) z) : Applies op (.number x) (.number y) (.number z)
  | concatenation {s t u : String} (whole : u.toList = s.toList ++ t.toList) :
      Applies .plus (.string s) (.string t) (.string u)
  | comparison {op : BinaryOp} {relation : Place → Place → Prop} {x y : Number} {b : Bool}
      (orders : Orders op relation) (holds : b = true ↔ Meets relation x y) :
      Applies op (.number x) (.number y) (.boolean b)
  | equality {first second : Value} {b : Bool} (alike : first.type = second.type) (some : first.type ≠ .nil)
      (holds : b = true ↔ Same first second) : Applies .equal first second (.boolean b)
  | difference {first second : Value} {b : Bool} (alike : first.type = second.type) (some : first.type ≠ .nil)
      (holds : b = true ↔ ¬ Same first second) : Applies .notEqual first second (.boolean b)

section
variable {op : BinaryOp} {relation : Place → Place → Prop} {x y : Number} {first second value : Value}

theorem amount_lt_iff (a : Bool) (m : Nat) (b : Bool) (n : Nat) :
    amount a m < amount b n ↔ Number.signed a m < Number.signed b n := by
  rw [amount_signed, amount_signed, div_lt_div_iff_of_pos_right one_cast_pos, Int.cast_lt]

theorem amount_eq_iff (a : Bool) (m : Nat) (b : Bool) (n : Nat) :
    amount a m = amount b n ↔ Number.signed a m = Number.signed b n := by
  rw [amount_signed, amount_signed, div_left_inj' one_cast_pos.ne', Int.cast_inj]

theorem meets_finite {a b : Bool} {m n : Nat} : Meets relation (.finite a m) (.finite b n) ↔
    relation ((amount a m : ℚ) : WithTop ℚ) ((amount b n : ℚ) : WithTop ℚ) := by
  simp [Meets, place?]

theorem lt_iff_meets : x.lt y = true ↔ Meets (· < ·) x y := by
  rw [Number.lt, beq_iff_eq]
  match x, y with
  | .nan, _ | .infinite _, .nan | .finite _ _, .nan => simp [Number.compare?, Meets, place?]
  | .infinite a, .infinite b => cases a <;> cases b <;> simp [Number.compare?, Meets, place?, compare_lt_iff_lt]
  | .infinite a, .finite b n => cases a <;> simp [Number.compare?, Meets, place?]
  | .finite a m, .infinite true => simp [Number.compare?, Meets, place?]
  | .finite a m, .infinite false =>
    have below : (((amount a m : ℚ) : WithTop ℚ) : Place) < ⊤ := WithBot.coe_lt_coe.mpr (WithTop.coe_lt_top _)
    simpa [Number.compare?, Meets, place?] using below
  | .finite a m, .finite b n =>
    rw [meets_finite, WithBot.coe_lt_coe, WithTop.coe_lt_coe, amount_lt_iff]
    simp [Number.compare?, compare_lt_iff_lt]

theorem eq_iff_meets : x.eq y = true ↔ Meets (· = ·) x y := by
  rw [Number.eq, beq_iff_eq]
  match x, y with
  | .nan, _ | .infinite _, .nan | .finite _ _, .nan => simp [Number.compare?, Meets, place?]
  | .infinite a, .infinite b => cases a <;> cases b <;> simp [Number.compare?, Meets, place?]
  | .infinite a, .finite b n => cases a <;> simp [Number.compare?, Meets, place?]
  | .finite a m, .infinite b => cases b <;> simp [Number.compare?, Meets, place?]
  | .finite a m, .finite b n =>
    rw [meets_finite, WithBot.coe_inj, WithTop.coe_inj, amount_eq_iff]
    simp [Number.compare?]

theorem le_iff_meets : x.le y = true ↔ Meets (· ≤ ·) x y := by
  rw [Number.le, Bool.or_eq_true, lt_iff_meets, eq_iff_meets]
  simp only [Meets, le_iff_lt_or_eq, ← exists_or, ← and_or_left]

theorem meets_swap : Meets relation y x ↔ Meets (fun p q => relation q p) x y := by
  constructor
  · rintro ⟨p, q, here, there, related⟩
    exact ⟨q, p, there, here, related⟩
  · rintro ⟨p, q, here, there, related⟩
    exact ⟨q, p, there, here, related⟩

theorem same_number_iff : Same (.number x) (.number y) ↔ Meets (· = ·) x y := by
  constructor
  · rintro ⟨meets⟩
    exact meets
  · exact .number

theorem same_string_iff {s t : String} : Same (.string s) (.string t) ↔ s = t := by
  constructor
  · rintro ⟨⟩
    rfl
  · rintro rfl
    exact .string

theorem same_boolean_iff {a b : Bool} : Same (.boolean a) (.boolean b) ↔ a = b := by
  constructor
  · rintro ⟨⟩
    rfl
  · rintro rfl
    exact .boolean

theorem Orders.result_eq (orders : Orders op relation) (x y : Number) :
    ∃ b, op.result? (.number x) (.number y) = some (.boolean b) ∧ (b = true ↔ Meets relation x y) := by
  cases orders with
  | less => exact ⟨_, rfl, lt_iff_meets⟩
  | lessOrEqual => exact ⟨_, rfl, le_iff_meets⟩
  | greater => exact ⟨_, rfl, lt_iff_meets.trans meets_swap⟩
  | greaterOrEqual => exact ⟨_, rfl, le_iff_meets.trans meets_swap⟩

theorem equal_result_eq (alike : first.type = second.type) (some : first.type ≠ .nil) :
    ∃ b, BinaryOp.equal.result? first second = Option.some (.boolean b) ∧
      BinaryOp.notEqual.result? first second = Option.some (.boolean (!b)) ∧ (b = true ↔ Same first second) := by
  match first, second with
  | .nil, .nil => exact absurd rfl some
  | .number x, .number y => exact ⟨x.eq y, rfl, rfl, eq_iff_meets.trans same_number_iff.symm⟩
  | .string s, .string t => exact ⟨s == t, rfl, rfl, beq_iff_eq.trans same_string_iff.symm⟩
  | .boolean a, .boolean b => exact ⟨a == b, rfl, rfl, beq_iff_eq.trans same_boolean_iff.symm⟩

/-- A value that the operator means for single operands is the result. -/
theorem Applies.result_eq (applies : Applies op first second value) (single : SingleValue first)
    (single' : SingleValue second) : op.result? first second = some value := by
  cases applies with
  | arithmetic arithmetic rounds =>
    obtain ⟨wide, result, once⟩ := result_roundsOnce arithmetic single single'
    rw [result, rounds.unique regular_single once.single]
  | concatenation whole =>
    rw [← String.toList_append, String.toList_inj] at whole
    rw [whole]
    rfl
  | @comparison _ _ x y b orders holds =>
    obtain ⟨found, result, holds'⟩ := orders.result_eq x y
    rw [result, Bool.eq_iff_iff.mpr (holds.trans holds'.symm)]
  | equality alike some holds =>
    obtain ⟨found, result, -, holds'⟩ := equal_result_eq alike some
    rw [result, Bool.eq_iff_iff.mpr (holds.trans holds'.symm)]
  | @difference _ _ b alike some holds =>
    obtain ⟨found, -, result, holds'⟩ := equal_result_eq alike some
    have opposite : b = !found := by
      rw [Bool.eq_iff_iff, holds, Bool.not_eq_true', ← Bool.not_eq_true, holds']
    rw [result, opposite]

theorem Arithmetic.applies {combine : Exact → Exact → Exact} (arithmetic : Arithmetic op combine) (single : x.IsSingle)
    (single' : y.IsSingle) (gives : op.result? (.number x) (.number y) = some value) :
    Applies op (.number x) (.number y) value := by
  obtain ⟨wide, result, once⟩ := result_roundsOnce arithmetic single single'
  cases result.symm.trans gives
  exact .arithmetic arithmetic once.single

theorem Orders.applies (orders : Orders op relation) (gives : op.result? (.number x) (.number y) = some value) :
    Applies op (.number x) (.number y) value := by
  obtain ⟨b, result, holds⟩ := orders.result_eq x y
  cases result.symm.trans gives
  exact .comparison orders holds

theorem equal_applies (alike : first.type = second.type) (some : first.type ≠ .nil)
    (gives : BinaryOp.equal.result? first second = Option.some value) : Applies .equal first second value := by
  obtain ⟨b, result, -, holds⟩ := equal_result_eq alike some
  cases result.symm.trans gives
  exact .equality alike some holds

theorem notEqual_applies (alike : first.type = second.type) (some : first.type ≠ .nil)
    (gives : BinaryOp.notEqual.result? first second = Option.some value) : Applies .notEqual first second value := by
  obtain ⟨b, -, result, holds⟩ := equal_result_eq alike some
  cases result.symm.trans gives
  refine .difference alike some ?_
  rw [Bool.not_eq_true', ← Bool.not_eq_true, holds]

/-- On single operands the operator gives what it means, and nothing else. -/
theorem applies_iff (single : SingleValue first) (single' : SingleValue second) :
    Applies op first second value ↔ op.result? first second = some value := by
  refine ⟨fun applies => applies.result_eq single single', fun gives => ?_⟩
  have result := gives
  -- One case for each pair of operands that some operator admits, and the last for all others.
  unfold BinaryOp.result? at result
  split at result
  · exact Arithmetic.plus.applies single single' gives
  · cases result
    exact .concatenation String.toList_append
  · exact Arithmetic.minus.applies single single' gives
  · exact Arithmetic.multiply.applies single single' gives
  · exact Arithmetic.divide.applies single single' gives
  · exact Orders.less.applies gives
  · exact Orders.lessOrEqual.applies gives
  · exact Orders.greater.applies gives
  · exact Orders.greaterOrEqual.applies gives
  · exact equal_applies rfl (by simp [Value.type]) gives
  · exact equal_applies rfl (by simp [Value.type]) gives
  · exact equal_applies rfl (by simp [Value.type]) gives
  · exact notEqual_applies rfl (by simp [Value.type]) gives
  · exact notEqual_applies rfl (by simp [Value.type]) gives
  · exact notEqual_applies rfl (by simp [Value.type]) gives
  · cases result

end

end Lox.Proofs
