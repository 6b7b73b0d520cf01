import Lox.Proofs.NearestEven
import Mathlib.Algebra.Order.Field.Basic

/-! Rounding as a relation between exact values and numbers. The values are rationals, and the
relation says only which values a format has and which of them is the nearest; it determines the
number, and rounding computes that number. -/

namespace Lox.Proofs

/-- The value of a count of units, with its sign. -/
def amount (negative : Bool) (units : ℚ) : ℚ := (if negative then -units else units) / Number.one

/-- The exact result of an operation. A value carries a sign of its own, as zero has none. -/
inductive Exact where
  | nan
  | infinite (negative : Bool)
  | value (negative : Bool) (value : ℚ)

def exact : Number → Exact
  | .nan => .nan
  | .infinite negative => .infinite negative
  | .finite negative units => .value negative (amount negative units)

/-- The finite values of a format: for singles, up to 24 bits in steps of 2^-149 and below
2^128. -/
def Representable (format : Format) (value : ℚ) : Prop :=
  (∃ significand exponent : ℤ, value = significand * 2 ^ exponent ∧ |significand| < 2 ^ format.precision ∧
    format.finest - 1074 ≤ exponent) ∧ |value| < 2 ^ (format.limit - 1074 : ℤ)

/-- The significand is even when it has all the bits that the format has for the value. -/
def EvenSignificand (format : Format) (value : ℚ) : Prop :=
  ∃ significand exponent : ℤ, value = significand * 2 ^ exponent ∧ Even significand ∧
    |significand| < 2 ^ format.precision ∧ format.finest - 1074 ≤ exponent ∧
    (2 ^ (format.precision - 1) ≤ |significand| ∨ exponent = format.finest - 1074)

/-- Where rounding reaches infinity: for singles, 2^128 - 2^103. -/
def threshold (format : Format) : ℚ :=
  2 ^ (format.limit - 1074 : ℤ) - 2 ^ (format.limit - 1074 - format.precision - 1 : ℤ)

/-- No value of the format is nearer, and if another one is as near, this one is even. -/
structure Nearest (format : Format) (value rounded : ℚ) : Prop where
  member : Representable format rounded
  closest : ∀ other, Representable format other → |rounded - value| ≤ |other - value|
  even : ∀ other, Representable format other → other ≠ rounded →
    |other - value| = |rounded - value| → EvenSignificand format rounded

/-- `Rounds format result number`: the exact result is rounded to this number. -/
inductive Rounds (format : Format) : Exact → Number → Prop where
  | nan : Rounds format .nan .nan
  | infinite {negative : Bool} : Rounds format (.infinite negative) (.infinite negative)
  | overflow {negative : Bool} {value : ℚ} (large : threshold format ≤ |value|) :
      Rounds format (.value negative value) (.infinite negative)
  | nearest {negative : Bool} {value : ℚ} {units : Nat} (small : |value| < threshold format)
      (nearest : Nearest format value (amount negative units)) :
      Rounds format (.value negative value) (.finite negative units)

theorem one_cast : (Number.one : ℚ) = 2 ^ 1074 := by
  have cast : ∀ exponent, ((Nat.pow 2 exponent : Nat) : ℚ) = 2 ^ exponent := Nat.cast_pow 2
  unfold Number.one
  apply cast

theorem one_cast_pos : (0 : ℚ) < Number.one := by
  rw [one_cast]
  positivity

theorem power_units (exponent : Nat) : (2 : ℚ) ^ (exponent - 1074 : ℤ) = 2 ^ exponent / Number.one := by
  rw [one_cast, zpow_sub₀ (by norm_num), zpow_natCast]
  rfl

section
variable {format : Format} {negative : Bool} {value rounded : ℚ} {units other : Nat}

theorem amount_false (value : ℚ) : amount false value = value / Number.one := rfl

theorem amount_true (value : ℚ) : amount true value = -(value / Number.one) := neg_div _ _

theorem amount_signed (negative : Bool) (units : Nat) :
    amount negative units = Number.signed negative units / Number.one := by
  rw [amount, div_left_inj' one_cast_pos.ne']
  cases negative <;> simp [Number.signed]

theorem abs_amount (negative : Bool) (value : ℚ) : |amount negative value| = |value| / Number.one := by
  cases negative with
  | false => rw [amount_false, abs_div, abs_of_pos one_cast_pos]
  | true => rw [amount_true, abs_neg, abs_div, abs_of_pos one_cast_pos]

theorem amount_sub (negative : Bool) (first second : ℚ) :
    amount negative first - amount negative second = amount negative (first - second) := by
  cases negative <;> simp only [amount, if_true, if_false, Bool.false_eq_true] <;> ring

theorem amount_injective {first second : ℚ} (same : amount negative first = amount negative second) :
    first = second := by
  have distance : |first - second| / Number.one = 0 := by
    rw [← abs_amount negative, ← amount_sub, same, sub_self, abs_zero]
  rw [div_eq_zero_iff, or_iff_left one_cast_pos.ne', abs_eq_zero, sub_eq_zero] at distance
  exact distance

theorem amount_power (negative : Bool) (significand exponent : Nat) :
    amount negative (significand * 2 ^ exponent : Nat) =
      (Number.signed negative significand : ℤ) * 2 ^ (exponent - 1074 : ℤ) := by
  rw [power_units, amount_signed, mul_div_assoc', div_left_inj' one_cast_pos.ne']
  cases negative <;> simp [Number.signed]

theorem abs_signed (negative : Bool) (units : Nat) : |Number.signed negative units| = units := by
  cases negative <;> simp [Number.signed]

theorem eq_amount_of_abs (negative : Bool) (same : |value| = units / Number.one) :
    value = amount negative units ∨ value = amount negative (-units) := by
  rcases abs_choice value with positive | negated
  · rw [positive] at same
    cases negative with
    | false => exact .inl same
    | true =>
      right
      rw [amount_true, neg_div, neg_neg]
      exact same
  · rw [negated, neg_eq_iff_eq_neg] at same
    cases negative with
    | false =>
      right
      rw [amount_false, neg_div]
      exact same
    | true =>
      left
      rw [amount_true]
      exact same

/-- A value written with a significand and an exponent is a whole number of units. -/
theorem units_of_power {significand exponent : ℤ} {finest : Nat} (same : value = significand * 2 ^ exponent)
    (fine : finest - 1074 ≤ exponent) :
    ∃ places, finest ≤ places ∧ exponent = places - 1074 ∧
      |value| = (significand.natAbs * 2 ^ places : Nat) / Number.one := by
  obtain ⟨places, whole⟩ := Int.eq_ofNat_of_zero_le (show 0 ≤ exponent + 1074 by omega)
  obtain rfl : exponent = places - 1074 := by omega
  refine ⟨places, by omega, rfl, ?_⟩
  rw [same, power_units, abs_mul, abs_of_pos (div_pos (by positivity) one_cast_pos)]
  push_cast
  rw [mul_div_assoc, Nat.cast_natAbs, Int.cast_abs]

theorem Representable.exists_units (member : Representable format value) (negative : Bool) :
    ∃ units : Nat, Holds format units ∧ (value = amount negative units ∨ value = amount negative (-units)) := by
  obtain ⟨⟨significand, exponent, same, short, fine⟩, -⟩ := member
  obtain ⟨places, coarse, -, magnitude⟩ := units_of_power same fine
  refine ⟨_, ⟨significand.natAbs, places, rfl, ?_, coarse⟩, eq_amount_of_abs negative magnitude⟩
  have bound : (significand.natAbs : ℤ) < 2 ^ format.precision := by rwa [Int.natCast_natAbs]
  exact_mod_cast bound.le

theorem representable_amount (precise : 0 < format.precision) (held : Holds format units)
    (small : units < 2 ^ format.limit) : Representable format (amount negative units) := by
  refine ⟨?_, ?_⟩
  · obtain ⟨significand, exponent, rfl, short, fine⟩ := held
    rcases Nat.lt_or_eq_of_le short with less | same
    · refine ⟨_, _, amount_power negative significand exponent, ?_, by omega⟩
      rw [abs_signed]
      exact_mod_cast less
    · -- A significand of one bit too many is a power of two.
      have half := (mul_pow_sub_one precise.ne' 2).symm
      have shifted : significand * 2 ^ exponent = 2 ^ (format.precision - 1) * 2 ^ (exponent + 1) := by
        rw [same, half, Nat.pow_succ]
        ring
      rw [shifted]
      refine ⟨_, _, amount_power negative _ (exponent + 1), ?_, by omega⟩
      rw [abs_signed]
      have positive := Nat.two_pow_pos (format.precision - 1)
      exact_mod_cast (show 2 ^ (format.precision - 1) < 2 ^ format.precision by omega)
  · rw [abs_amount, power_units, Nat.abs_cast]
    apply div_lt_div_of_pos_right _ one_cast_pos
    exact_mod_cast small

theorem representable_amount_iff (precise : 0 < format.precision) :
    Representable format (amount negative units) ↔ Holds format units ∧ units < 2 ^ format.limit := by
  constructor
  · intro member
    have small : units < 2 ^ format.limit := by
      have bound := member.2
      rw [abs_amount, power_units, Nat.abs_cast, div_lt_div_iff_of_pos_right one_cast_pos] at bound
      exact_mod_cast bound
    obtain ⟨found, held, same | opposite⟩ := member.exists_units negative
    · have equal : (units : ℚ) = found := amount_injective same
      obtain rfl : units = found := by exact_mod_cast equal
      exact ⟨held, small⟩
    · -- Of opposite signs, both are zero.
      have equal : (units : ℚ) = -(found : ℚ) := amount_injective opposite
      have sum : units + found = 0 := by
        have zero : (units : ℚ) + found = 0 := by linarith
        exact_mod_cast zero
      obtain rfl : units = found := by omega
      exact ⟨held, small⟩
  · intro ⟨held, small⟩
    exact representable_amount precise held small

theorem representable_power (precise : 0 < format.precision) (negative : Bool) {exponent : Nat}
    (finest : format.finest ≤ exponent) (limit : exponent < format.limit) :
    Representable format (amount negative (2 ^ exponent : Nat)) := by
  apply representable_amount precise
  · exact ⟨1, exponent, (Nat.one_mul _).symm, Nat.one_le_two_pow, finest⟩
  · exact Nat.pow_lt_pow_right Nat.one_lt_two limit

theorem evenSignificand_amount_iff :
    EvenSignificand format (amount negative units) ↔ EvenIn format units := by
  constructor
  · rintro ⟨significand, exponent, same, even, short, fine, canonical⟩
    obtain ⟨places, coarse, rfl, magnitude⟩ := units_of_power same fine
    rw [abs_amount, Nat.abs_cast, div_left_inj' one_cast_pos.ne'] at magnitude
    have short' : (significand.natAbs : ℤ) < 2 ^ format.precision := by rwa [Int.natCast_natAbs]
    refine ⟨significand.natAbs, places, by exact_mod_cast magnitude, ?_, by exact_mod_cast short', coarse, ?_⟩
    · exact Nat.even_iff.mp (Int.natAbs_even.mpr even)
    · rcases canonical with long | finest
      · left
        rw [← Int.natCast_natAbs] at long
        exact_mod_cast long
      · right
        omega
  · rintro ⟨significand, exponent, rfl, even, short, fine, canonical⟩
    refine ⟨_, _, amount_power negative significand exponent, ?_, ?_, by omega, ?_⟩
    · cases negative <;> simp [Number.signed, Nat.even_iff, even, Int.even_coe_nat]
    · rw [abs_signed]
      exact_mod_cast short
    · rw [abs_signed]
      rcases canonical with long | rfl
      · left
        exact_mod_cast long
      · right
        rfl

theorem threshold_units (regular : Regular format) :
    threshold format = (2 ^ format.limit - 2 ^ (format.limit - format.precision - 1)) / Number.one := by
  obtain ⟨precise, room⟩ := regular
  have last : (format.limit - 1074 - format.precision - 1 : ℤ) =
      (format.limit - format.precision - 1 : Nat) - 1074 := by omega
  rw [threshold, last, power_units, power_units, sub_div]

theorem amount_distance (negative : Bool) (first second : ℚ) :
    |amount negative first - amount negative second| = |first - second| / Number.one := by
  rw [amount_sub, abs_amount]

/-- The multiple of the spacing that rounding takes is the nearest value of the format. -/
theorem nearest_amount {num den : Nat} (regular : Regular format) (positive : 0 < den) (negative : Bool)
    (small : format.nearest num den < 2 ^ format.limit) :
    Nearest format (amount negative (num / den)) (amount negative (format.nearest num den)) := by
  have precise := Nat.lt_of_succ_lt regular.precise
  have zero : Holds format 0 := ⟨0, format.finest, by simp, Nat.zero_le _, le_rfl⟩
  have quotient : (0 : ℚ) ≤ num / den := by positivity
  have toZero : |(format.nearest num den : ℚ) - num / den| ≤ _ := zero.closest precise positive
  rw [Nat.cast_zero, zero_sub, abs_neg, abs_of_nonneg quotient] at toZero
  -- A value of the other sign is further away than zero is.
  have across (units : Nat) : |-(units : ℚ) - num / den| = units + num / den := by
    rw [← neg_add', abs_neg, abs_of_nonneg (by positivity)]
  refine ⟨representable_amount precise (holds_nearest format num positive) small, ?_, ?_⟩
  · intro other member
    obtain ⟨units, held, rfl | rfl⟩ := member.exists_units negative
    · rw [amount_distance, amount_distance]
      exact div_le_div_of_nonneg_right (held.closest precise positive) one_cast_pos.le
    · rw [amount_distance, amount_distance, across]
      apply div_le_div_of_nonneg_right _ one_cast_pos.le
      linarith [(units.cast_nonneg : (0 : ℚ) ≤ units)]
  · intro other member different equal
    rw [evenSignificand_amount_iff]
    obtain ⟨units, held, rfl | rfl⟩ := member.exists_units negative
    · rw [amount_distance, amount_distance, div_left_inj' one_cast_pos.ne'] at equal
      apply held.tie regular.precise positive _ equal
      rintro rfl
      exact different rfl
    · rw [amount_distance, amount_distance, div_left_inj' one_cast_pos.ne', across] at equal
      have none : (units : ℚ) = 0 := by linarith [(units.cast_nonneg : (0 : ℚ) ≤ units)]
      rw [none, neg_zero] at different
      apply zero.tie regular.precise positive
      · rintro same
        rw [← same] at different
        exact different (by simp)
      · rw [← equal, none, Nat.cast_zero, zero_sub, abs_neg, abs_of_nonneg quotient, zero_add]

theorem round_rounds {num den : Nat} (regular : Regular format) (positive : 0 < den) (negative : Bool) :
    Rounds format (.value negative (amount negative (num / den))) (format.round negative num den) := by
  have magnitude : |amount negative (num / den)| = num / den / Number.one := by
    rw [abs_amount, abs_of_nonneg (by positivity)]
  by_cases large : (2 : ℚ) ^ format.limit - 2 ^ (format.limit - format.precision - 1) ≤ num / den
  · have rounds : format.round negative num den = .infinite negative :=
      if_neg (Nat.not_lt.mpr (limit_le_nearest regular positive large))
    rw [rounds]
    apply Rounds.overflow
    rw [magnitude, threshold_units regular]
    exact div_le_div_of_nonneg_right large one_cast_pos.le
  · have small := nearest_lt_limit regular positive (lt_of_not_ge large)
    rw [round_of_lt negative small]
    apply Rounds.nearest _ (nearest_amount regular positive negative small)
    rw [magnitude, threshold_units regular]
    exact div_lt_div_of_pos_right (lt_of_not_ge large) one_cast_pos

/-- Between two values with even significands there is always another one. -/
theorem EvenIn.exists_between (even : EvenIn format units) (even' : EvenIn format other)
    (less : units < other) : ∃ middle, Holds format middle ∧ units < middle ∧ middle < other := by
  obtain ⟨significand, exponent, rfl, twice, short, fine, canonical⟩ := even
  obtain ⟨significand', exponent', rfl, twice', short', fine', -⟩ := even'
  have coarser : exponent ≤ exponent' := by
    rcases canonical with long | rfl
    · have powers : 2 ^ (format.precision - 1 + exponent) < 2 ^ (format.precision + exponent') :=
        calc
          2 ^ (format.precision - 1 + exponent) = 2 ^ (format.precision - 1) * 2 ^ exponent := Nat.pow_add ..
          _ ≤ significand * 2 ^ exponent := Nat.mul_le_mul_right _ long
          _ < significand' * 2 ^ exponent' := less
          _ ≤ 2 ^ format.precision * 2 ^ exponent' := Nat.mul_le_mul_right _ short'.le
          _ = 2 ^ (format.precision + exponent') := (Nat.pow_add ..).symm
      have exponents := (Nat.pow_lt_pow_iff_right (by omega)).mp powers
      omega
    · exact fine'
  obtain ⟨more, rfl⟩ := Nat.exists_eq_add_of_le coarser
  have aligned : significand' * 2 ^ (exponent + more) = significand' * 2 ^ more * 2 ^ exponent := by
    rw [Nat.pow_add]
    ring
  rw [aligned, Nat.mul_lt_mul_right (Nat.two_pow_pos exponent)] at less
  have even : significand' * 2 ^ more % 2 = 0 := by rw [Nat.mul_mod, twice', Nat.zero_mul, Nat.zero_mod]
  refine ⟨(significand + 1) * 2 ^ exponent, ⟨_, _, rfl, short, fine⟩, ?_, ?_⟩
  · exact Nat.mul_lt_mul_of_pos_right (Nat.lt_succ_self significand) (Nat.two_pow_pos exponent)
  · rw [aligned]
    exact Nat.mul_lt_mul_of_pos_right (by omega) (Nat.two_pow_pos exponent)

theorem amount_lt {first second : ℚ} (less : first < second) : amount false first < amount false second :=
  div_lt_div_of_pos_right less one_cast_pos

theorem amount_gt {first second : ℚ} (less : first < second) : amount true second < amount true first :=
  div_lt_div_of_pos_right (neg_lt_neg less) one_cast_pos

/-- What lies between two values at one distance is nearer than both. -/
theorem nearer_between {low middle high : ℚ} (equal : |high - value| = |low - value|) (above : low < middle)
    (below : middle < high) : |middle - value| < |low - value| := by
  rw [abs_lt]
  rcases abs_cases (high - value) with ⟨far, _⟩ | ⟨far, _⟩ <;>
    rcases abs_cases (low - value) with ⟨near, _⟩ | ⟨near, _⟩ <;> constructor <;> linarith

theorem Nearest.not_lt (precise : 0 < format.precision) (nearest : Nearest format value (amount negative units))
    (nearest' : Nearest format value (amount negative other)) : ¬ units < other := by
  intro less
  have equal : |amount negative other - value| = |amount negative units - value| :=
    le_antisymm (nearest'.closest _ nearest.member) (nearest.closest _ nearest'.member)
  have different : amount negative other ≠ amount negative units := by
    intro same
    have same' := amount_injective same
    exact less.ne' (by exact_mod_cast same')
  have even := evenSignificand_amount_iff.mp (nearest.even _ nearest'.member different equal)
  have even' := evenSignificand_amount_iff.mp (nearest'.even _ nearest.member different.symm equal.symm)
  obtain ⟨middle, held, above, below⟩ := even.exists_between even' less
  have small : other < 2 ^ format.limit := by
    have bound := nearest'.member.2
    rw [abs_amount, power_units, Nat.abs_cast, div_lt_div_iff_of_pos_right one_cast_pos] at bound
    exact_mod_cast bound
  have member : Representable format (amount negative middle) :=
    representable_amount precise held (below.trans small)
  have further := nearest.closest _ member
  have above' : (units : ℚ) < middle := by exact_mod_cast above
  have below' : (middle : ℚ) < other := by exact_mod_cast below
  apply further.not_gt
  cases negative
  · exact nearer_between equal (amount_lt above') (amount_lt below')
  · rw [← equal]
    exact nearer_between equal.symm (amount_gt below') (amount_gt above')

theorem Rounds.unique {result : Exact} {number number' : Number} (regular : Regular format)
    (rounds : Rounds format result number) (rounds' : Rounds format result number') : number = number' := by
  cases rounds with
  | nan | infinite =>
    cases rounds'
    rfl
  | overflow large =>
    cases rounds' with
    | overflow _ => rfl
    | nearest small _ => exact absurd small (not_lt.mpr large)
  | nearest small nearest =>
    cases rounds' with
    | overflow large => exact absurd small (not_lt.mpr large)
    | nearest _ nearest' =>
      have precise := Nat.lt_of_succ_lt regular.precise
      have same := Nat.le_antisymm (Nat.not_lt.mp (nearest'.not_lt precise nearest))
        (Nat.not_lt.mp (nearest.not_lt precise nearest'))
      rw [same]

end

theorem regular_single : Regular .single := ⟨by decide, by decide⟩

theorem regular_double : Regular .double := ⟨by decide, by decide⟩

theorem toSingle_rounds (number : Number) : Rounds .single (exact number) number.toSingle := by
  cases number with
  | nan => exact .nan
  | infinite negative => exact .infinite
  | finite negative units =>
    have rounds := @round_rounds .single units 1 regular_single Nat.one_pos negative
    rwa [Nat.cast_one, div_one] at rounds

end Lox.Proofs
