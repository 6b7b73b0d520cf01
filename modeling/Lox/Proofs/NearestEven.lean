import Lox.Proofs.Decimals

/-! Rounding to the nearest, as a statement about distances: no number of the format is nearer than
the one that rounding takes, and where another is as near, the significand taken is even. Halfway to
the limit of the format, rounding reaches it. -/

namespace Lox.Proofs

theorem divEven_tie {num den : Nat} (positive : 0 < den)
    (half : |(divEven num den : ℚ) - num / den| = 1 / 2) : divEven num den % 2 = 0 := by
  have den_pos : (0 : ℚ) < den := by exact_mod_cast positive
  have cross : 2 * divEven num den * den = 2 * num + den ∨ 2 * num = (2 * divEven num den + 1) * den := by
    rcases (abs_eq (by norm_num)).mp half with above | below
    · left
      have value : (2 * divEven num den * den : ℚ) = 2 * num + den := by
        rw [sub_eq_iff_eq_add, add_div' _ _ _ den_pos.ne', eq_div_iff den_pos.ne'] at above
        linarith
      exact_mod_cast value
    · right
      have value : (2 * num : ℚ) = (2 * divEven num den + 1) * den := by
        rw [sub_eq_iff_eq_add, add_div' _ _ _ den_pos.ne', eq_div_iff den_pos.ne'] at below
        linarith
      exact_mod_cast value
  have parts := Nat.div_add_mod' num den
  have small := Nat.mod_lt num positive
  unfold divEven at cross ⊢
  dsimp only at cross ⊢
  split at cross
  next down =>
    rw [if_pos down]
    rcases down with less | ⟨_, even⟩
    · rcases cross with above | below
      · have impossible : 2 * (num % den) + den = 0 := by linarith
        omega
      · have tie : 2 * (num % den) = den := by linarith
        omega
    · exact even
  next up =>
    rw [if_neg up]
    rcases cross with above | below
    · have tie : 2 * (num % den) = den := by linarith
      omega
    · have impossible : 2 * (num % den) = 3 * den := by linarith
      omega

theorem divEven_closest {num den other : Nat} (positive : 0 < den) (different : other ≠ divEven num den) :
    1 / 2 ≤ |(other : ℚ) - num / den| := by
  have half := divEven_half num positive
  have apart : (1 : ℚ) ≤ |(other : ℚ) - divEven num den| := by
    have whole : (1 : ℤ) ≤ |(other : ℤ) - divEven num den| := by
      apply Int.one_le_abs
      omega
    exact_mod_cast whole
  have triangle := abs_sub_le (other : ℚ) (num / den) (divEven num den)
  rw [abs_sub_comm (num / den : ℚ)] at triangle
  linarith

section
variable {format : Format} {num den : Nat}

/-- Distances from a multiple of the spacing, counted in spacings. -/
theorem spacing_distance (format : Format) (num den count : Nat) :
    |((count * 2 ^ format.spacing num den : Nat) : ℚ) - num / den| =
      |(count : ℚ) - num / (den * 2 ^ format.spacing num den : Nat)| * 2 ^ format.spacing num den := by
  have power : (0 : ℚ) < 2 ^ format.spacing num den := by positivity
  have scaled : ((count * 2 ^ format.spacing num den : Nat) : ℚ) - num / den =
      ((count : ℚ) - num / (den * 2 ^ format.spacing num den : Nat)) * 2 ^ format.spacing num den := by
    push_cast
    field_simp
  rw [scaled, abs_mul, abs_of_pos power]

theorem spacing_closest (positive : 0 < den) (count : Nat) :
    |(format.nearest num den : ℚ) - num / den| ≤ |((count * 2 ^ format.spacing num den : Nat) : ℚ) - num / den| := by
  have below : 0 < den * 2 ^ format.spacing num den := Nat.mul_pos positive (Nat.two_pow_pos _)
  rw [nearest_eq, spacing_distance, spacing_distance]
  by_cases same : count = divEven num (den * 2 ^ format.spacing num den)
  · rw [same]
  · apply mul_le_mul_of_nonneg_right _ (by positivity)
    exact (divEven_half num below).trans (divEven_closest below same)

/-- Another number of the format is further away, or it is a multiple of the same spacing. -/
theorem Holds.further {units : Nat} (held : Holds format units) (precise : 0 < format.precision) (num : Nat)
    (positive : 0 < den) : |(format.nearest num den : ℚ) - num / den| < |(units : ℚ) - num / den| ∨
      ∃ count, units = count * 2 ^ format.spacing num den := by
  rcases held.aligned precise num den with ⟨count, rfl⟩ | ⟨small, opens⟩
  · exact .inr ⟨count, Nat.mul_comm _ _⟩
  · left
    -- The power of two that opens the binade lies between the two.
    have power := opening_eq precise (format.spacing num den)
    have den_pos : (0 : ℚ) < den := by exact_mod_cast positive
    have inside : ((2 ^ (format.precision - 1) * 2 ^ format.spacing num den : Nat) : ℚ) ≤ num / den := by
      rw [le_div_iff₀ den_pos, ← power]
      exact_mod_cast (Nat.le_div_iff_mul_le positive).mp opens
    have shorter : (units : ℚ) < (2 ^ (format.precision - 1) * 2 ^ format.spacing num den : Nat) := by
      rw [← power]
      exact_mod_cast small
    apply (spacing_closest positive (2 ^ (format.precision - 1))).trans_lt
    rw [abs_of_nonpos (by linarith), abs_of_nonpos (by linarith)]
    linarith

theorem Holds.closest {units : Nat} (held : Holds format units) (precise : 0 < format.precision) (positive : 0 < den) :
    |(format.nearest num den : ℚ) - num / den| ≤ |(units : ℚ) - num / den| := by
  rcases held.further precise num positive with further | ⟨count, rfl⟩
  · exact further.le
  · exact spacing_closest positive count

/-- What is no further from the higher of two numbers than from the lower lies above their middle. -/
theorem middle_le_of_nearer {low high value : ℚ} (less : low < high) (nearer : |high - value| ≤ |low - value|) :
    low + high ≤ 2 * value := by
  rcases abs_cases (high - value) with ⟨far, _⟩ | ⟨far, _⟩ <;>
    rcases abs_cases (low - value) with ⟨near, _⟩ | ⟨near, _⟩ <;> linarith

theorem le_middle_of_nearer {low high value : ℚ} (less : low < high) (nearer : |low - value| ≤ |high - value|) :
    2 * value ≤ low + high := by
  rcases abs_cases (high - value) with ⟨far, _⟩ | ⟨far, _⟩ <;>
    rcases abs_cases (low - value) with ⟨near, _⟩ | ⟨near, _⟩ <;> linarith

/-- Rounding keeps the order of values. -/
theorem nearest_mono {num' den' : Nat} (precise : 0 < format.precision) (positive : 0 < den) (positive' : 0 < den')
    (order : (num / den : ℚ) ≤ num' / den') : format.nearest num den ≤ format.nearest num' den' := by
  by_contra crossed
  have less : (format.nearest num' den' : ℚ) < format.nearest num den := by exact_mod_cast Nat.lt_of_not_le crossed
  have above := middle_le_of_nearer less ((holds_nearest format num' positive').closest precise positive)
  have below := le_middle_of_nearer less ((holds_nearest format num positive).closest precise positive')
  -- Both values lie in the middle between the two numbers, so they are one value and have one nearest.
  have same : (num / den : ℚ) = num' / den' := by linarith
  have den_pos : (0 : ℚ) < den := by exact_mod_cast positive
  have den_pos' : (0 : ℚ) < den' := by exact_mod_cast positive'
  rw [div_eq_div_iff den_pos.ne' den_pos'.ne'] at same
  apply crossed
  rw [nearest_congr format positive positive' (by exact_mod_cast same)]

/-- The significand of a number of the format, taken as long as the format allows, is even. -/
def EvenIn (format : Format) (units : Nat) : Prop :=
  ∃ significand exponent, units = significand * 2 ^ exponent ∧ significand % 2 = 0 ∧
    significand < 2 ^ format.precision ∧ format.finest ≤ exponent ∧
    (2 ^ (format.precision - 1) ≤ significand ∨ exponent = format.finest)

theorem le_significand (precise : 0 < format.precision) (positive : 0 < den)
    (coarse : format.finest < format.spacing num den) :
    2 ^ (format.precision - 1) ≤ divEven num (den * 2 ^ format.spacing num den) := by
  apply le_divEven (Nat.mul_pos positive (Nat.two_pow_pos _))
  have inside := (Nat.le_div_iff_mul_le positive).mp (spacing_opens precise coarse)
  rw [opening_eq precise] at inside
  linarith

theorem evenIn_nearest (precise : 1 < format.precision) (positive : 0 < den)
    (even : divEven num (den * 2 ^ format.spacing num den) % 2 = 0) : EvenIn format (format.nearest num den) := by
  have finest := finest_le_spacing format num den
  rcases Nat.lt_or_eq_of_le (significand_le format num positive) with less | same
  · refine ⟨_, _, nearest_eq format num den, even, less, finest, ?_⟩
    rcases Nat.eq_or_lt_of_le finest with equal | coarse
    · exact .inr equal.symm
    · exact .inl (le_significand (by omega) positive coarse)
  · -- At the end of the binade the significand is a power of two with one bit less.
    have half : 2 * 2 ^ (format.precision - 1) = 2 ^ format.precision := mul_pow_sub_one (by omega) 2
    refine ⟨2 ^ (format.precision - 1), format.spacing num den + 1, ?_, ?_, ?_, by omega, .inl le_rfl⟩
    · rw [nearest_eq, same, ← half, Nat.pow_succ]
      ring
    · rw [← mul_pow_sub_one (show format.precision - 1 ≠ 0 by omega)]
      exact Nat.mul_mod_right 2 _
    · have positive := Nat.two_pow_pos (format.precision - 1)
      omega

theorem Holds.tie {units : Nat} (held : Holds format units) (precise : 1 < format.precision) (positive : 0 < den)
    (different : units ≠ format.nearest num den)
    (equal : |(units : ℚ) - num / den| = |(format.nearest num den : ℚ) - num / den|) :
    EvenIn format (format.nearest num den) := by
  rcases held.further (Nat.lt_of_succ_lt precise) num positive with further | ⟨count, rfl⟩
  · rw [equal] at further
    exact absurd further (lt_irrefl _)
  have below : 0 < den * 2 ^ format.spacing num den := Nat.mul_pos positive (Nat.two_pow_pos _)
  have power : (0 : ℚ) < 2 ^ format.spacing num den := by positivity
  apply evenIn_nearest precise positive
  rw [nearest_eq] at different equal
  rw [spacing_distance, spacing_distance, mul_left_inj' power.ne'] at equal
  apply divEven_tie below
  apply le_antisymm (divEven_half num below)
  rw [← equal]
  apply divEven_closest below
  rintro rfl
  exact different rfl

theorem nearest_half (format : Format) (num : Nat) (positive : 0 < den) :
    |(format.nearest num den : ℚ) - num / den| ≤ 2 ^ format.spacing num den / 2 := by
  have below : 0 < den * 2 ^ format.spacing num den := Nat.mul_pos positive (Nat.two_pow_pos _)
  rw [nearest_eq, spacing_distance]
  calc
    _ ≤ 1 / 2 * (2 : ℚ) ^ format.spacing num den :=
      mul_le_mul_of_nonneg_right (divEven_half num below) (by positivity)
    _ = 2 ^ format.spacing num den / 2 := by ring

/-- A format whose numbers have at least two bits, with room for a normal one. -/
structure Regular (format : Format) : Prop where
  precise : 1 < format.precision
  room : format.finest + format.precision < format.limit

theorem Regular.limit_eq (regular : Regular format) :
    (2 : ℚ) ^ format.limit = 2 ^ format.precision * (2 * 2 ^ (format.limit - format.precision - 1)) := by
  obtain ⟨precise, room⟩ := regular
  rw [← pow_succ', ← pow_add]
  congr 1
  omega

theorem nearest_lt_limit (regular : Regular format) (positive : 0 < den)
    (small : (num / den : ℚ) < 2 ^ format.limit - 2 ^ (format.limit - format.precision - 1)) :
    format.nearest num den < 2 ^ format.limit := by
  have error := nearest_half format num positive
  have den_pos : (0 : ℚ) < den := by exact_mod_cast positive
  have half : (0 : ℚ) < 2 ^ (format.limit - format.precision - 1) := by positivity
  have fine : format.spacing num den ≤ format.limit - format.precision - 1 + 1 := by
    obtain ⟨precise, room⟩ := regular
    apply spacing_le (by omega) (by omega)
    rw [Nat.div_lt_iff_lt_mul positive]
    have inside : (num : ℚ) < 2 ^ format.limit * den := by
      rw [← div_lt_iff₀ den_pos]
      linarith
    rw [show format.limit - format.precision - 1 + 1 + format.precision = format.limit by omega]
    exact_mod_cast inside
  have step : (2 : ℚ) ^ format.spacing num den ≤ 2 * 2 ^ (format.limit - format.precision - 1) := by
    rw [← pow_succ']
    exact pow_le_pow_right₀ (by norm_num) fine
  have bound : (format.nearest num den : ℚ) < 2 ^ format.limit := by linarith [(abs_le.mp error).2]
  exact_mod_cast bound

/-- From the largest number of the format up to the limit, the spacing is that of its last binade. -/
theorem spacing_below_limit (regular : Regular format) (positive : 0 < den) (short : num < 2 ^ format.limit * den)
    (large : (2 : ℚ) ^ format.limit - 2 ^ (format.limit - format.precision - 1) ≤ num / den) :
    format.spacing num den = format.limit - format.precision - 1 + 1 := by
  obtain ⟨precise, room⟩ := regular
  have den_pos : (0 : ℚ) < den := by exact_mod_cast positive
  apply le_antisymm
  · apply spacing_le (by omega) (by omega)
    rw [Nat.div_lt_iff_lt_mul positive,
      show format.limit - format.precision - 1 + 1 + format.precision = format.limit by omega]
    exact short
  · have binade : 2 ^ (format.limit - 1) ≤ num / den := by
      rw [Nat.le_div_iff_mul_le positive]
      have inside : (2 : ℚ) ^ (format.limit - 1) * den ≤ num := by
        rw [← le_div_iff₀ den_pos]
        have double : 2 * (2 : ℚ) ^ (format.limit - 1) = 2 ^ format.limit := mul_pow_sub_one (by omega) 2
        have shorter : (2 : ℚ) ^ (format.limit - format.precision - 1) ≤ 2 ^ (format.limit - 1) :=
          pow_le_pow_right₀ (by norm_num) (by omega)
        linarith
      exact_mod_cast inside
    have reaches := @le_spacing format num den _ binade
    omega

/-- Half a step below a power of two, the even quotient is the power itself: the number before it is
odd. -/
theorem le_divEven_of_half {bits : Nat} (positive : 0 < den) (some : bits ≠ 0)
    (large : (2 : ℚ) ^ bits - 1 / 2 ≤ num / den) : 2 ^ bits ≤ divEven num den := by
  by_contra short
  have error := divEven_half num positive
  have less : (divEven num den : ℚ) + 1 ≤ 2 ^ bits := by exact_mod_cast Nat.lt_of_not_le short
  have even : divEven num den % 2 = 0 := by
    apply divEven_tie positive
    apply le_antisymm error
    rw [abs_sub_comm]
    exact le_trans (by linarith) (le_abs_self _)
  have before : (divEven num den : ℚ) + 1 = 2 ^ bits := by linarith [(abs_le.mp error).1]
  have before' : divEven num den + 1 = 2 ^ bits := by exact_mod_cast before
  rw [← mul_pow_sub_one some] at before'
  omega

/-- Halfway between the largest number of the format and the limit, rounding goes to the limit. -/
theorem limit_le_nearest (regular : Regular format) (positive : 0 < den)
    (large : (2 : ℚ) ^ format.limit - 2 ^ (format.limit - format.precision - 1) ≤ num / den) :
    2 ^ format.limit ≤ format.nearest num den := by
  have precise := regular.precise
  have room := regular.room
  by_cases past : 2 ^ format.limit * den ≤ num
  · have held : Holds format (2 ^ format.limit) :=
      ⟨1, format.limit, (Nat.one_mul _).symm, Nat.one_le_two_pow, by omega⟩
    exact held.le_nearest (by omega) positive past
  have limit_eq := regular.limit_eq
  have spacing := spacing_below_limit regular positive (Nat.lt_of_not_le past) large
  have power : (0 : ℚ) < 2 ^ format.spacing num den := by positivity
  have quotient : (2 : ℚ) ^ format.precision - 1 / 2 ≤ num / (den * 2 ^ format.spacing num den : Nat) := by
    push_cast
    rw [← div_div, le_div_iff₀ power, spacing, pow_succ']
    linarith
  have whole := le_divEven_of_half (Nat.mul_pos positive (Nat.two_pow_pos _)) (by omega) quotient
  rw [nearest_eq]
  calc
    2 ^ format.limit = 2 ^ format.precision * 2 ^ format.spacing num den := by
      rw [← Nat.pow_add, spacing]
      congr 1
      omega
    _ ≤ _ := Nat.mul_le_mul_right _ whole

end

end Lox.Proofs
