import Lox.Proofs.SingleArithmetic

/-! Rounding to a single is correct rounding: the nearest single is taken, of two equally near ones the
one with the even significand, and infinity from halfway between the largest single and 2^128 on. The sign
stays, also that of a zero. So rounding keeps the order of numbers, goes along with a change of sign, and
does nothing to what is rounded already. -/

namespace Lox.Proofs

section
variable {format : Format} {negative : Bool} {value : ℚ} {num den num' den' units rounded : Nat} {x y : Number}

theorem threshold_single : threshold .single = 2 ^ 128 - 2 ^ 103 := by
  have top : ((Format.single.limit : ℤ) - 1074) = (128 : Nat) := by decide
  have half : ((Format.single.limit : ℤ) - 1074 - Format.single.precision - 1) = (103 : Nat) := by decide
  rw [threshold, half, top, zpow_natCast, zpow_natCast]

theorem representable_zero (format : Format) : Representable format 0 := by
  refine ⟨⟨0, format.finest - 1074, by simp, by simp, le_rfl⟩, ?_⟩
  rw [abs_zero]
  positivity

/-- The nearest value of the format has the sign of what it is nearest to. -/
theorem Nearest.exists_units (nearest : Nearest format (amount negative units) value) :
    ∃ found : Nat, value = amount negative found := by
  obtain ⟨found, -, same | opposite⟩ := nearest.member.exists_units negative
  · exact ⟨found, same⟩
  · -- Across zero, only zero itself is no further away than zero.
    have toZero := nearest.closest 0 (representable_zero format)
    rw [← amount_zero negative, opposite, amount_distance, amount_distance,
      div_le_div_iff_of_pos_right one_cast_pos, ← neg_add', abs_neg, zero_sub, abs_neg, Nat.abs_cast,
      abs_of_nonneg (by positivity)] at toZero
    have none : found = 0 := by
      have bound : (found : ℚ) ≤ 0 := by linarith
      exact Nat.le_zero.mp (by exact_mod_cast bound)
    refine ⟨0, ?_⟩
    rw [opposite, none, Nat.cast_zero, neg_zero]

/-- Of two values that are equally near, only the one that is taken has an even significand. -/
theorem Nearest.not_even (regular : Regular format) (small : |amount negative units| < threshold format)
    (nearest : Nearest format (amount negative units) (amount negative rounded)) (member : Representable format value)
    (different : value ≠ amount negative rounded)
    (tie : |value - amount negative units| = |amount negative rounded - amount negative units|) :
    ¬ EvenSignificand format value := by
  intro even
  have again : Nearest format (amount negative units) value :=
    ⟨member, fun other held => tie.trans_le (nearest.closest other held), fun _ _ _ _ => even⟩
  obtain ⟨found, rfl⟩ := again.exists_units
  have same := (Rounds.nearest small again).unique regular (Rounds.nearest small nearest)
  cases same
  exact different rfl

theorem toSingle_of_small (small : |amount negative units| < threshold .single) :
    ∃ rounded : Nat, (Number.finite negative units).toSingle = .finite negative rounded ∧
      Nearest .single (amount negative units) (amount negative rounded) := by
  have rounds : Rounds .single (.value negative (amount negative units)) _ := toSingle_rounds (.finite negative units)
  generalize (Number.finite negative units).toSingle = result at rounds
  cases rounds with
  | overflow large => exact absurd small (not_lt.mpr large)
  | nearest _ nearest => exact ⟨_, rfl, nearest⟩

theorem toSingle_of_large (large : threshold .single ≤ |amount negative units|) :
    (Number.finite negative units).toSingle = .infinite negative := by
  have rounds : Rounds .single (.value negative (amount negative units)) _ := toSingle_rounds (.finite negative units)
  generalize (Number.finite negative units).toSingle = result at rounds
  cases rounds with
  | overflow _ => rfl
  | nearest small _ => exact absurd small (not_lt.mpr large)

theorem toSingle_neg (x : Number) : x.neg.toSingle = x.toSingle.neg := by
  cases x with
  | nan => rfl
  | infinite negative => rfl
  | finite negative units =>
    change Format.single.round (!negative) units 1 = (Format.single.round negative units 1).neg
    unfold Format.round
    dsimp only
    split <;> rfl

theorem toSingle_toSingle (x : Number) : x.toSingle.toSingle = x.toSingle := isSingle_toSingle x

theorem le_finite_iff (a : Bool) (m : Nat) (b : Bool) (n : Nat) :
    (Number.finite a m).le (.finite b n) = true ↔ Number.signed a m ≤ Number.signed b n := by
  simp only [Number.le, Number.lt, Number.eq, Number.compare?, Bool.or_eq_true, beq_iff_eq, Option.some.injEq,
    compare_lt_iff_lt, compare_eq_iff_eq, le_iff_lt_or_eq]

theorem signed_not (a : Bool) (m : Nat) : Number.signed (!a) m = -Number.signed a m := by
  cases a with
  | false => rfl
  | true => exact (neg_neg (m : ℤ)).symm

theorem le_neg_iff (x y : Number) : y.neg.le x.neg = true ↔ x.le y = true := by
  cases x with
  | nan => cases y <;> exact Iff.rfl
  | infinite a =>
    cases y with
    | nan => exact Iff.rfl
    | infinite b => cases a <;> cases b <;> decide
    | finite b n => cases a <;> exact Iff.rfl
  | finite a m =>
    cases y with
    | nan => exact Iff.rfl
    | infinite b => cases b <;> exact Iff.rfl
    | finite b n =>
      rw [Number.neg, Number.neg, le_finite_iff, le_finite_iff, signed_not, signed_not]
      exact neg_le_neg_iff

theorem round_le (precise : 0 < format.precision) (positive : 0 < den) (positive' : 0 < den')
    (order : (num / den : ℚ) ≤ num' / den') :
    (format.round false num den).le (format.round false num' den') = true := by
  have units := nearest_mono precise positive positive' order
  by_cases small : format.nearest num' den' < 2 ^ format.limit
  · rw [round_of_lt false small, round_of_lt false (units.trans_lt small), le_finite_iff]
    exact Int.ofNat_le.mpr units
  · have infinite : format.round false num' den' = .infinite false := if_neg small
    rw [infinite]
    rcases round_cases format false num den with same | ⟨found, same⟩ <;> rw [same] <;> rfl

/-- Whatever the magnitudes, a number rounded with a sign is at most one rounded without. -/
theorem round_le_of_signs (format : Format) (num den num' den' : Nat) :
    (format.round true num den).le (format.round false num' den') = true := by
  rcases round_cases format true num den with low | ⟨m, low⟩ <;>
    rcases round_cases format false num' den' with high | ⟨n, high⟩ <;> rw [low, high]
  · rfl
  · rfl
  · rfl
  · rw [le_finite_iff]
    change -(m : ℤ) ≤ n
    omega

theorem toSingle_le_of_signed {a b : Bool} {m n : Nat} (order : Number.signed a m ≤ Number.signed b n) :
    (Number.finite a m).toSingle.le (Number.finite b n).toSingle = true := by
  have magnitudes {m n : Nat} (less : m ≤ n) :
      (Number.finite false m).toSingle.le (Number.finite false n).toSingle = true := by
    have values : (m / (1 : Nat) : ℚ) ≤ n / (1 : Nat) := by
      rw [Nat.cast_one, div_one, div_one]
      exact_mod_cast less
    rw [toSingle_finite, toSingle_finite]
    exact round_le (show 0 < Format.single.precision by decide) Nat.one_pos Nat.one_pos values
  cases a with
  | false =>
    cases b with
    | false => exact magnitudes (Int.ofNat_le.mp order)
    | true =>
      -- Only the two zeros are in this order.
      have none : m = 0 ∧ n = 0 := by
        change (m : ℤ) ≤ -n at order
        omega
      rw [none.1, none.2, toSingle_finite, toSingle_finite, round_zero regular_single, round_zero regular_single]
      rfl
  | true =>
    cases b with
    | false => exact round_le_of_signs .single m 1 n 1
    | true =>
      rw [← le_neg_iff, ← toSingle_neg, ← toSingle_neg]
      apply magnitudes
      change -(m : ℤ) ≤ -n at order
      omega

theorem toSingle_mono (order : x.le y = true) : x.toSingle.le y.toSingle = true := by
  cases x with
  | nan => cases order
  | infinite a =>
    cases y with
    | nan => cases order
    | infinite b => exact order
    | finite b n =>
      rcases round_cases .single b n 1 with same | ⟨found, same⟩ <;> rw [toSingle_finite, same]
      · cases a with
        | true => cases b <;> rfl
        | false => cases order
      · exact order
  | finite a m =>
    cases y with
    | nan => cases order
    | infinite b =>
      rcases round_cases .single a m 1 with same | ⟨found, same⟩ <;> rw [toSingle_finite, same]
      · cases b with
        | true => cases order
        | false => cases a <;> rfl
      · exact order
    | finite b n => exact toSingle_le_of_signed ((le_finite_iff a m b n).mp order)

end

/-- Rounding to a single is correct. Below 2^128 - 2^103 no single is nearer than the one taken, and one that
is as near has an odd significand where the one taken has an even one; from there on rounding gives an infinity.
Either way the sign is kept. So rounding is monotone, odd and idempotent on all numbers. -/
theorem toSingle_correct :
    (∀ (negative : Bool) (units : Nat), |amount negative units| < 2 ^ 128 - 2 ^ 103 →
      ∃ rounded : Nat, (Number.finite negative units).toSingle = .finite negative rounded ∧
        Nearest .single (amount negative units) (amount negative rounded) ∧
        ∀ other, Representable .single other → other ≠ amount negative rounded →
          |other - amount negative units| = |amount negative rounded - amount negative units| →
          ¬ EvenSignificand .single other) ∧
    (∀ (negative : Bool) (units : Nat), 2 ^ 128 - 2 ^ 103 ≤ |amount negative units| →
      (Number.finite negative units).toSingle = .infinite negative) ∧
    (∀ negative, (Number.infinite negative).toSingle = .infinite negative) ∧ Number.nan.toSingle = .nan ∧
    (∀ x y : Number, x.le y = true → x.toSingle.le y.toSingle = true) ∧
    (∀ x : Number, x.neg.toSingle = x.toSingle.neg) ∧
    (∀ x : Number, x.toSingle.toSingle = x.toSingle) := by
  refine ⟨?_, ?_, fun _ => rfl, rfl, fun _ _ => toSingle_mono, toSingle_neg, toSingle_toSingle⟩
  · intro negative units small
    rw [← threshold_single] at small
    obtain ⟨rounded, same, nearest⟩ := toSingle_of_small small
    refine ⟨rounded, same, nearest, ?_⟩
    intro other member different tie
    exact nearest.not_even regular_single small member different tie
  · intro negative units large
    rw [← threshold_single] at large
    exact toSingle_of_large large

/-- In units, rounding reaches infinity 2^1177 below 2^1202. -/
theorem amount_threshold : amount false (2 ^ 1202 - 2 ^ 1177 : Nat) = threshold .single := by
  have cast {top half : Nat} (order : half ≤ top) : ((2 ^ top - 2 ^ half : Nat) : ℚ) = 2 ^ top - 2 ^ half := by
    rw [Nat.cast_sub (Nat.pow_le_pow_right Nat.two_pos order), Nat.cast_pow, Nat.cast_pow, Nat.cast_ofNat]
  rw [threshold_units regular_single, amount_false, cast (by decide)]
  rfl

theorem amount_power_lt_threshold (negative : Bool) {exponent : Nat} (low : exponent < 1177) :
    |amount negative (2 ^ exponent : Nat)| < threshold .single := by
  have below : (2 : ℚ) ^ exponent < 2 ^ 1177 := pow_lt_pow_right₀ (by norm_num) low
  have positive : (0 : ℚ) < 2 ^ 1177 := by positivity
  rw [threshold_units regular_single, abs_amount, Nat.abs_cast, Nat.cast_pow, Nat.cast_ofNat, regular_single.limit_eq]
  apply div_lt_div_of_pos_right _ one_cast_pos
  change _ < 2 ^ 24 * (2 * 2 ^ 1177) - (2 : ℚ) ^ 1177
  generalize (2 : ℚ) ^ 1177 = half at below positive ⊢
  linarith

/-- Half of the least single lies between that single, which is odd, and a zero, and becomes the zero of its
sign. Halfway from the largest single to 2^128 there is no single above. -/
theorem toSingle_halfLeast :
    (|amount true (2 ^ 924 : Nat)| < 2 ^ 128 - 2 ^ 103 ∧
      ∃ rounded : Nat, (Number.finite true (2 ^ 924)).toSingle = .finite true rounded ∧ rounded = 0 ∧
        Nearest .single (amount true (2 ^ 924 : Nat)) (amount true rounded) ∧
        Representable .single (amount true (2 ^ 925 : Nat)) ∧ ¬ EvenSignificand .single (amount true (2 ^ 925 : Nat))) ∧
    (2 ^ 128 - 2 ^ 103 ≤ |amount false (2 ^ 1202 - 2 ^ 1177 : Nat)| ∧
      (Number.finite false (2 ^ 1202 - 2 ^ 1177)).toSingle = .infinite false) ∧
    ((Number.infinite true).le (.finite true (2 ^ 924)) = true ∧
      (Number.infinite true).toSingle.le (Number.finite true (2 ^ 924)).toSingle = true) := by
  obtain ⟨finite, overflow, -, -, monotone, -, -⟩ := toSingle_correct
  refine ⟨?_, ?_, rfl, monotone _ _ rfl⟩
  · have small : |amount true (2 ^ 924 : Nat)| < 2 ^ 128 - 2 ^ 103 := by
      rw [← threshold_single]
      exact amount_power_lt_threshold true (by decide)
    obtain ⟨rounded, same, nearest, odd⟩ := finite true (2 ^ 924) small
    have zero : (Number.finite true (2 ^ 924)).toSingle = .finite true 0 := by decide +kernel
    obtain rfl : rounded = 0 := by
      cases same.symm.trans zero
      rfl
    have least : Representable .single (amount true (2 ^ 925 : Nat)) :=
      representable_power (by decide) true (by decide) (by decide)
    refine ⟨small, 0, same, rfl, nearest, least, odd _ least ?_ ?_⟩
    · have some (exponent : Nat) : 2 ^ exponent ≠ 0 := (Nat.two_pow_pos exponent).ne'
      rw [Nat.cast_zero, amount_zero, ne_eq, amount_eq_zero_iff]
      apply some
    · have double (exponent : Nat) : ((2 ^ (exponent + 1) : Nat) : ℚ) = 2 * (2 ^ exponent : Nat) := by
        rw [Nat.pow_succ', Nat.cast_mul, Nat.cast_ofNat]
      rw [amount_distance, amount_distance, double 924, Nat.cast_zero, zero_sub, abs_neg, two_mul, add_sub_cancel_right]
  · have large : 2 ^ 128 - 2 ^ 103 ≤ |amount false (2 ^ 1202 - 2 ^ 1177 : Nat)| := by
      rw [← threshold_single, ← amount_threshold]
      exact le_abs_self _
    exact ⟨large, overflow false _ large⟩

end Lox.Proofs
