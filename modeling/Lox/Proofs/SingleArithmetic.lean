import Lox.Expr.Eval
import Lox.Proofs.DoubleRounding
import Lox.Proofs.ExactRounding

/-! Arithmetic on singles. The four operations are given exactly, with the signs of zeros and the
cases of infinities and NaNs, and a result is rounded once. Evaluation, which rounds to a double and
then to a single, gives that same number. -/

namespace Lox.Proofs

namespace Exact

def neg : Exact → Exact
  | .nan => .nan
  | .infinite negative => .infinite (!negative)
  | .value negative x => .value (!negative) (-x)

/-- A sum of zero is negative only if both operands are. -/
def add : Exact → Exact → Exact
  | .nan, _ | _, .nan => .nan
  | .infinite a, .infinite b => if a = b then .infinite a else .nan
  | .infinite a, .value _ _ => .infinite a
  | .value _ _, .infinite b => .infinite b
  | .value a x, .value b y => .value (if x + y = 0 then a && b else decide (x + y < 0)) (x + y)

def sub (x y : Exact) : Exact := x.add y.neg

def mul : Exact → Exact → Exact
  | .nan, _ | _, .nan => .nan
  | .infinite a, .infinite b => .infinite (a ^^ b)
  | .infinite a, .value b y => if y = 0 then .nan else .infinite (a ^^ b)
  | .value a x, .infinite b => if x = 0 then .nan else .infinite (a ^^ b)
  | .value a x, .value b y => .value (a ^^ b) (x * y)

def div : Exact → Exact → Exact
  | .nan, _ | _, .nan => .nan
  | .infinite _, .infinite _ => .nan
  | .infinite a, .value b _ => .infinite (a ^^ b)
  | .value a _, .infinite b => .value (a ^^ b) 0
  | .value a x, .value b y =>
    if y = 0 then if x = 0 then .nan else .infinite (a ^^ b) else .value (a ^^ b) (x / y)

end Exact

/-- The operators of arithmetic and what they compute. -/
inductive Arithmetic : BinaryOp → (Exact → Exact → Exact) → Prop where
  | plus : Arithmetic .plus Exact.add
  | minus : Arithmetic .minus Exact.sub
  | multiply : Arithmetic .multiply Exact.mul
  | divide : Arithmetic .divide Exact.div

section
variable {format : Format} {a b : Bool} {m n : Nat} {x y : Number}

theorem amount_eq_zero_iff : amount a m = 0 ↔ m = 0 := by
  rw [← abs_eq_zero, abs_amount, Nat.abs_cast, div_eq_zero_iff, or_iff_left one_cast_pos.ne', Nat.cast_eq_zero]

theorem amount_neg (negative : Bool) (value : ℚ) : amount (!negative) value = -amount negative value := by
  cases negative with
  | false => exact amount_true value
  | true =>
    rw [amount_true, neg_neg]
    exact amount_false value

theorem amount_zero (negative : Bool) : amount negative 0 = 0 := by
  cases negative with
  | false => rw [amount_false, zero_div]
  | true => rw [amount_true, zero_div, neg_zero]

/-- A whole number of units with the sign that it has. -/
theorem amount_natAbs (whole : ℤ) : amount (whole < 0) whole.natAbs = whole / Number.one := by
  rw [amount_signed]
  congr 2
  by_cases negative : whole < 0
  · simp only [Number.signed, decide_eq_true negative, if_true]
    omega
  · simp only [Number.signed, decide_eq_false negative, if_false, Bool.false_eq_true]
    omega

theorem exact_neg (number : Number) : exact number.neg = (exact number).neg := by
  cases number with
  | nan => rfl
  | infinite negative => rfl
  | finite negative units => simp only [exact, Number.neg, Exact.neg, amount_neg]

/-- The sum of two finite numbers in a format. -/
def sumIn (format : Format) (a : Bool) (m : Nat) (b : Bool) (n : Nat) : Number :=
  let sum := Number.signed a m + Number.signed b n
  if sum = 0 then .finite (a && b) 0 else format.round (sum < 0) sum.natAbs 1

theorem round_zero (regular : Regular format) (negative : Bool) :
    format.round negative 0 1 = .finite negative 0 := by
  have held : Holds format 0 := ⟨0, format.finest, by simp, Nat.zero_le _, le_rfl⟩
  have same := held.nearest_self (Nat.lt_of_succ_lt regular.precise)
  have small : format.nearest 0 1 < 2 ^ format.limit := by
    rw [same]
    exact Nat.two_pow_pos _
  rw [round_of_lt negative small, same]

theorem zero_rounds (regular : Regular format) (negative : Bool) :
    Rounds format (.value negative 0) (.finite negative 0) := by
  have rounds := @round_rounds format 0 1 regular Nat.one_pos negative
  rw [round_zero regular] at rounds
  rwa [Nat.cast_zero, zero_div, amount_zero] at rounds

theorem sum_rounds (regular : Regular format) (a : Bool) (m : Nat) (b : Bool) (n : Nat) :
    Rounds format ((exact (.finite a m)).add (exact (.finite b n))) (sumIn format a m b n) := by
  have total : amount a m + amount b n = (Number.signed a m + Number.signed b n : ℤ) / Number.one := by
    rw [amount_signed, amount_signed, ← add_div, Int.cast_add]
  simp only [exact, Exact.add, sumIn, total, div_eq_zero_iff, one_cast_pos.ne', or_false, Int.cast_eq_zero]
  generalize Number.signed a m + Number.signed b n = sum
  by_cases zero : sum = 0
  · rw [if_pos zero, if_pos zero, zero, Int.cast_zero, zero_div]
    exact zero_rounds regular (a && b)
  · have sign : decide ((sum / Number.one : ℚ) < 0) = decide (sum < 0) := by
      rw [decide_eq_decide, div_lt_iff₀ one_cast_pos, zero_mul, Int.cast_lt_zero]
    rw [if_neg zero, if_neg zero, sign, ← amount_natAbs]
    have rounds := @round_rounds format sum.natAbs 1 regular Nat.one_pos (sum < 0)
    rwa [Nat.cast_one, div_one] at rounds

theorem product_rounds (regular : Regular format) (a : Bool) (m : Nat) (b : Bool) (n : Nat) :
    Rounds format ((exact (.finite a m)).mul (exact (.finite b n))) (format.round (a ^^ b) (m * n) Number.one) := by
  have product : amount a m * amount b n = amount (a ^^ b) ((m * n : Nat) / Number.one) := by
    rw [Nat.cast_mul]
    unfold amount
    generalize (Number.one : ℚ) = one
    cases a <;> cases b <;> simp <;> ring
  rw [exact, exact, Exact.mul, product]
  exact round_rounds regular one_pos (a ^^ b)

theorem quotient_rounds (regular : Regular format) (a : Bool) (m : Nat) (b : Bool) (some : 0 < n) :
    Rounds format ((exact (.finite a m)).div (exact (.finite b n))) (format.round (a ^^ b) (m * Number.one) n) := by
  have quotient : amount a m / amount b n = amount (a ^^ b) ((m * Number.one : Nat) / n) := by
    have positive := one_cast_pos
    rw [Nat.cast_mul]
    unfold amount
    generalize (Number.one : ℚ) = one at positive ⊢
    cases a <;> cases b <;> simp <;> field_simp
  rw [exact, exact, Exact.div, if_neg (amount_eq_zero_iff.not.mpr some.ne'), quotient]
  exact round_rounds regular some (a ^^ b)

/-- The double is rounded to the very single that the exact result is rounded to. -/
structure RoundsOnce (result : Exact) (wide : Number) : Prop where
  double : Rounds .double result wide
  single : Rounds .single result wide.toSingle

theorem roundsOnce_nan : RoundsOnce .nan .nan := ⟨.nan, .nan⟩

theorem roundsOnce_infinite (negative : Bool) : RoundsOnce (.infinite negative) (.infinite negative) :=
  ⟨.infinite, .infinite⟩

theorem roundsOnce_zero (negative : Bool) : RoundsOnce (.value negative 0) (.finite negative 0) := by
  refine ⟨zero_rounds regular_double negative, ?_⟩
  rw [toSingle_finite, round_zero regular_single]
  exact zero_rounds regular_single negative

theorem toSingle_sumIn (single : (Number.finite a m).IsSingle) (single' : (Number.finite b n).IsSingle) :
    (sumIn .double a m b n).toSingle = sumIn .single a m b n := by
  unfold sumIn
  have combined : (Number.signed a m + Number.signed b n).natAbs = m + n ∨
      (Number.signed a m + Number.signed b n).natAbs + n = m ∨
      (Number.signed a m + Number.signed b n).natAbs + m = n := by
    cases a <;> cases b <;> simp only [Number.signed, if_true, if_false, Bool.false_eq_true] <;> omega
  have harmless := sum_harmless single single' combined
  generalize Number.signed a m + Number.signed b n = sum at harmless
  by_cases zero : sum = 0
  · rw [if_pos zero, if_pos zero, toSingle_finite, round_zero regular_single]
  · rw [if_neg zero, if_neg zero, harmless.toSingle]

theorem add_roundsOnce (single : x.IsSingle) (single' : y.IsSingle) :
    RoundsOnce ((exact x).add (exact y)) (x.add y) := by
  cases x with
  | nan => exact roundsOnce_nan
  | infinite a =>
    cases y with
    | nan => exact roundsOnce_nan
    | infinite b =>
      simp only [exact, Exact.add, Number.add]
      by_cases same : a = b
      · rw [if_pos same, if_pos same]
        exact roundsOnce_infinite a
      · rw [if_neg same, if_neg same]
        exact roundsOnce_nan
    | finite b n => exact roundsOnce_infinite a
  | finite a m =>
    cases y with
    | nan => exact roundsOnce_nan
    | infinite b => exact roundsOnce_infinite b
    | finite b n =>
      refine ⟨sum_rounds regular_double a m b n, ?_⟩
      change Rounds .single _ (sumIn .double a m b n).toSingle
      rw [toSingle_sumIn single single']
      exact sum_rounds regular_single a m b n

theorem sub_roundsOnce (single : x.IsSingle) (single' : y.IsSingle) :
    RoundsOnce ((exact x).sub (exact y)) (x.sub y) := by
  rw [Exact.sub, Number.sub, ← exact_neg]
  exact add_roundsOnce single (isSingle_neg single')

theorem mul_roundsOnce (single : x.IsSingle) (single' : y.IsSingle) :
    RoundsOnce ((exact x).mul (exact y)) (x.mul y) := by
  -- An infinity times zero is a NaN, on either side.
  have scaled (negative : Bool) (a : Bool) (m : Nat) :
      RoundsOnce (if amount a m = 0 then .nan else .infinite negative)
        (if m = 0 then .nan else .infinite negative) := by
    by_cases zero : m = 0
    · rw [if_pos (amount_eq_zero_iff.mpr zero), if_pos zero]
      exact roundsOnce_nan
    · rw [if_neg (amount_eq_zero_iff.not.mpr zero), if_neg zero]
      exact roundsOnce_infinite negative
  cases x with
  | nan => exact roundsOnce_nan
  | infinite a =>
    cases y with
    | nan => exact roundsOnce_nan
    | infinite b => exact roundsOnce_infinite (a ^^ b)
    | finite b n => exact scaled (a ^^ b) b n
  | finite a m =>
    cases y with
    | nan => exact roundsOnce_nan
    | infinite b => exact scaled (a ^^ b) a m
    | finite b n =>
      refine ⟨product_rounds regular_double a m b n, ?_⟩
      rw [Number.mul, (product_harmless single single').toSingle]
      exact product_rounds regular_single a m b n

theorem div_roundsOnce (single : x.IsSingle) (single' : y.IsSingle) :
    RoundsOnce ((exact x).div (exact y)) (x.div y) := by
  cases x with
  | nan => exact roundsOnce_nan
  | infinite a =>
    cases y with
    | nan | infinite b => exact roundsOnce_nan
    | finite b n => exact roundsOnce_infinite (a ^^ b)
  | finite a m =>
    cases y with
    | nan => exact roundsOnce_nan
    | infinite b => exact roundsOnce_zero (a ^^ b)
    | finite b n =>
      by_cases zero : n = 0
      · simp only [exact, Exact.div, Number.div, amount_eq_zero_iff, if_pos zero]
        by_cases zero' : m = 0
        · rw [if_pos zero', if_pos zero']
          exact roundsOnce_nan
        · rw [if_neg zero', if_neg zero']
          exact roundsOnce_infinite (a ^^ b)
      · have some := Nat.pos_of_ne_zero zero
        have quotient : (Number.finite a m).div (.finite b n) =
            Format.double.round (a ^^ b) (m * Number.one) n := if_neg zero
        rw [quotient]
        refine ⟨quotient_rounds regular_double a m b some, ?_⟩
        rw [(quotient_harmless single single' some).toSingle]
        exact quotient_rounds regular_single a m b some

theorem result_roundsOnce {op : BinaryOp} {combine : Exact → Exact → Exact} (arithmetic : Arithmetic op combine)
    (single : x.IsSingle) (single' : y.IsSingle) :
    ∃ wide, op.result? (.number x) (.number y) = some (.number wide.toSingle) ∧
      RoundsOnce (combine (exact x) (exact y)) wide := by
  cases arithmetic with
  | plus => exact ⟨_, rfl, add_roundsOnce single single'⟩
  | minus => exact ⟨_, rfl, sub_roundsOnce single single'⟩
  | multiply => exact ⟨_, rfl, mul_roundsOnce single single'⟩
  | divide => exact ⟨_, rfl, div_roundsOnce single single'⟩

end

/-- The double of an operation on singles, rounded to a single, is the one single that the exact
result itself is rounded to. -/
theorem arithmetic_rounds_once {op : BinaryOp} {combine : Exact → Exact → Exact} (arithmetic : Arithmetic op combine)
    {x y : Number} (single : x.IsSingle) (single' : y.IsSingle) :
    ∃ wide result, op.result? (.number x) (.number y) = some (.number result) ∧
      Rounds .double (combine (exact x) (exact y)) wide ∧ Rounds .single (exact wide) result ∧
      ∀ number, Rounds .single (combine (exact x) (exact y)) number ↔ number = result := by
  obtain ⟨wide, result, double, once⟩ := result_roundsOnce arithmetic single single'
  refine ⟨wide, wide.toSingle, result, double, toSingle_rounds wide, ?_⟩
  intro number
  constructor
  · intro rounds
    exact rounds.unique regular_single once
  · rintro rfl
    exact once

def leastSingle : Number := .finite false (Nat.pow 2 925)

def lowestPower : Number := .finite true (Nat.pow 2 1201)

/-- The quotient, -2^-276, is a double and far below every single. -/
theorem leastSingle_lowestPower_rounds_once : leastSingle.IsSingle ∧ lowestPower.IsSingle ∧
    ∃ wide result, BinaryOp.divide.result? (.number leastSingle) (.number lowestPower) = some (.number result) ∧
      Rounds .double ((exact leastSingle).div (exact lowestPower)) wide ∧ Rounds .single (exact wide) result ∧
      ∀ number, Rounds .single ((exact leastSingle).div (exact lowestPower)) number ↔ number = result := by
  have single : leastSingle.IsSingle := by
    unfold leastSingle
    apply isSingle_power <;> decide
  have single' : lowestPower.IsSingle := by
    unfold lowestPower
    apply isSingle_power <;> decide
  exact ⟨single, single', arithmetic_rounds_once .divide single single'⟩

end Lox.Proofs
