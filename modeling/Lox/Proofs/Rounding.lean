import Lox.Number.Rounding
import Mathlib.Algebra.Order.Ring.Nat
import Mathlib.Tactic.Linarith
import Mathlib.Tactic.Ring

/-! Rounding into a format, seen from the numbers the format holds. A number of the format is a
multiple of the spacing at every value, except below the binade of that value, so rounding never
crosses a number of the format. All comparisons with a fraction are multiplied out. -/

namespace Lox.Proofs

theorem divEven_le {num den bound : Nat} (positive : 0 < den) (below : num ≤ bound * den) :
    divEven num den ≤ bound := by
  have parts := Nat.div_add_mod' num den
  have quotient : num / den ≤ bound := by
    apply Nat.div_le_of_le_mul
    rw [Nat.mul_comm]
    exact below
  unfold divEven
  dsimp only
  split
  · exact quotient
  next away =>
    -- Rounding up leaves a remainder, so the quotient is not the bound itself.
    apply Nat.lt_of_le_of_ne quotient
    intro same
    rw [same] at parts
    omega

theorem le_divEven {num den bound : Nat} (positive : 0 < den) (above : bound * den ≤ num) :
    bound ≤ divEven num den := by
  have quotient : bound ≤ num / den := (Nat.le_div_iff_mul_le positive).mpr above
  unfold divEven
  dsimp only
  split <;> omega

theorem divEven_error (num : Nat) {den : Nat} (positive : 0 < den) :
    2 * num ≤ (2 * divEven num den + 1) * den ∧ 2 * divEven num den * den ≤ 2 * num + den := by
  have parts := Nat.div_add_mod' num den
  have floor := Nat.div_mul_le_self num den
  have small := Nat.mod_lt num positive
  unfold divEven
  dsimp only
  split
  next down =>
    have half : 2 * (num % den) ≤ den := by omega
    constructor <;> linarith
  next up =>
    have half : den ≤ 2 * (num % den) := by omega
    constructor <;> linarith

theorem divEven_of_near {num den whole : Nat} (above : 2 * num < (2 * whole + 1) * den)
    (below : 2 * whole * den < 2 * num + den) : divEven num den = whole := by
  have positive : 0 < den := by
    apply Nat.pos_of_ne_zero
    intro zero
    simp [zero] at above
  obtain ⟨upper, lower⟩ := divEven_error num positive
  apply Nat.le_antisymm
  · apply Nat.le_of_lt_succ
    apply Nat.lt_of_mul_lt_mul_right (a := den)
    linarith
  · apply Nat.le_of_lt_succ
    apply Nat.lt_of_mul_lt_mul_right (a := den)
    linarith

theorem divEven_scale (num den : Nat) {scale : Nat} (positive : 0 < scale) :
    divEven (num * scale) (den * scale) = divEven num den := by
  unfold divEven
  simp only [Nat.mul_div_mul_right _ _ positive, Nat.mul_mod_mul_right, ← Nat.mul_assoc,
    Nat.mul_lt_mul_right positive, Nat.mul_left_inj positive.ne']

/-- The magnitudes of a format, its limit apart: at most `precision` significant bits, in steps of
2^`finest`. -/
def Holds (format : Format) (units : Nat) : Prop :=
  ∃ significand exponent, units = significand * 2 ^ exponent ∧ significand ≤ 2 ^ format.precision ∧
    format.finest ≤ exponent

theorem nearest_eq (format : Format) (num den : Nat) : format.nearest num den =
    divEven num (den * 2 ^ format.spacing num den) * 2 ^ format.spacing num den := rfl

section
variable {format : Format} {num den bound exponent : Nat}

theorem finest_le_spacing (format : Format) (num den : Nat) : format.finest ≤ format.spacing num den :=
  le_max_left _ _

theorem lt_spacing (format : Format) (num den : Nat) :
    num / den < 2 ^ (format.spacing num den + format.precision) :=
  calc
    num / den < 2 ^ ((num / den).log2 + 1) := Nat.lt_log2_self
    _ ≤ 2 ^ (format.spacing num den + format.precision) := by
      apply Nat.pow_le_pow_right (by omega)
      unfold Format.spacing
      omega

/-- Above the finest spacing, the spacing tells the binade. -/
theorem spacing_opens (precise : 0 < format.precision) (coarse : format.finest < format.spacing num den) :
    2 ^ (format.spacing num den + format.precision - 1) ≤ num / den := by
  have binade : format.spacing num den + format.precision - 1 = (num / den).log2 := by
    unfold Format.spacing at coarse ⊢
    omega
  rw [binade]
  apply Nat.log2_self_le
  intro zero
  simp only [Format.spacing, zero, Nat.log2_zero] at coarse
  omega

/-- The power of two that opens a binade, as a multiple of the spacing in it. -/
theorem opening_eq (precise : 0 < format.precision) (step : Nat) :
    2 ^ (step + format.precision - 1) = 2 ^ (format.precision - 1) * 2 ^ step := by
  rw [← Nat.pow_add]
  congr 1
  omega

theorem spacing_le (precise : 0 < format.precision) (coarse : format.finest ≤ exponent)
    (small : num / den < 2 ^ (exponent + format.precision)) : format.spacing num den ≤ exponent := by
  by_contra larger
  have opens := spacing_opens precise (Nat.lt_of_le_of_lt coarse (Nat.lt_of_not_le larger))
  have powers : 2 ^ (exponent + format.precision) ≤ 2 ^ (format.spacing num den + format.precision - 1) :=
    Nat.pow_le_pow_right (by omega) (by omega)
  omega

theorem le_spacing (large : 2 ^ exponent ≤ num / den) :
    exponent < format.spacing num den + format.precision :=
  (Nat.pow_lt_pow_iff_right (by omega)).mp (Nat.lt_of_le_of_lt large (lt_spacing format num den))

/-- What a number of the format is next to a value: a multiple of the spacing there, or below the
power of two that opens the binade of the value. -/
theorem Holds.aligned (held : Holds format bound) (precise : 0 < format.precision) (num den : Nat) :
    2 ^ format.spacing num den ∣ bound ∨
      bound < 2 ^ (format.spacing num den + format.precision - 1) ∧
        2 ^ (format.spacing num den + format.precision - 1) ≤ num / den := by
  obtain ⟨significand, exponent, rfl, short, coarse⟩ := held
  by_cases fits : format.spacing num den ≤ exponent
  · left
    exact Nat.dvd_mul_left_of_dvd (Nat.pow_dvd_pow 2 fits) significand
  have upper : significand * 2 ^ exponent ≤ 2 ^ (format.spacing num den + format.precision - 1) :=
    calc
      significand * 2 ^ exponent ≤ 2 ^ format.precision * 2 ^ exponent :=
        Nat.mul_le_mul_right _ short
      _ = 2 ^ (format.precision + exponent) := (Nat.pow_add 2 _ _).symm
      _ ≤ 2 ^ (format.spacing num den + format.precision - 1) :=
        Nat.pow_le_pow_right (by omega) (by omega)
  rcases Nat.lt_or_eq_of_le upper with below | same
  · exact .inr ⟨below, spacing_opens precise (by omega)⟩
  · left
    rw [same]
    exact Nat.pow_dvd_pow 2 (by omega)

theorem Holds.dvd (held : Holds format bound) (precise : 0 < format.precision) :
    2 ^ format.spacing bound 1 ∣ bound := by
  rcases held.aligned precise bound 1 with multiple | ⟨small, opens⟩
  · exact multiple
  · rw [Nat.div_one] at opens
    omega

/-- Numbers of a format keep a distance of more than one part in 2^`precision`. -/
theorem Holds.lt_gap {units other : Nat} (held : Holds format units) (held' : Holds format other)
    (precise : 0 < format.precision) (less : units < other) : units < (other - units) * 2 ^ format.precision := by
  have multiple : 2 ^ format.spacing units 1 ∣ other := by
    rcases held'.aligned precise units 1 with multiple | ⟨small, opens⟩
    · exact multiple
    · rw [Nat.div_one] at opens
      omega
  have step : 2 ^ format.spacing units 1 ≤ other - units :=
    Nat.le_of_dvd (by omega) (Nat.dvd_sub multiple (held.dvd precise))
  calc
    units < 2 ^ (format.spacing units 1 + format.precision) := by
      have binade := lt_spacing format units 1
      rwa [Nat.div_one] at binade
    _ = 2 ^ format.spacing units 1 * 2 ^ format.precision := Nat.pow_add ..
    _ ≤ (other - units) * 2 ^ format.precision := Nat.mul_le_mul_right _ step

/-- Rounding does not pass a number of the format upwards. -/
theorem Holds.nearest_le (held : Holds format bound) (precise : 0 < format.precision)
    (positive : 0 < den) (below : num ≤ bound * den) : format.nearest num den ≤ bound := by
  rw [nearest_eq]
  rcases held.aligned precise num den with ⟨count, rfl⟩ | ⟨small, opens⟩
  · rw [Nat.mul_comm _ count]
    apply Nat.mul_le_mul_right
    apply divEven_le (Nat.mul_pos positive (Nat.two_pow_pos _))
    linarith
  · have inside := (Nat.le_div_iff_mul_le positive).mp opens
    have short := Nat.mul_lt_mul_of_pos_right small positive
    omega

/-- Rounding does not pass a number of the format downwards. -/
theorem Holds.le_nearest (held : Holds format bound) (precise : 0 < format.precision)
    (positive : 0 < den) (above : bound * den ≤ num) : bound ≤ format.nearest num den := by
  have multiple : ∀ count, count * 2 ^ format.spacing num den * den ≤ num →
      count * 2 ^ format.spacing num den ≤ format.nearest num den := by
    intro count under
    rw [nearest_eq]
    apply Nat.mul_le_mul_right
    apply le_divEven (Nat.mul_pos positive (Nat.two_pow_pos _))
    linarith
  rcases held.aligned precise num den with ⟨count, rfl⟩ | ⟨small, opens⟩
  · rw [Nat.mul_comm] at above ⊢
    apply multiple count
    linarith
  · rw [opening_eq precise] at small opens
    apply Nat.le_trans small.le
    apply multiple
    exact (Nat.le_div_iff_mul_le positive).mp opens

theorem significand_le (format : Format) (num : Nat) (positive : 0 < den) :
    divEven num (den * 2 ^ format.spacing num den) ≤ 2 ^ format.precision := by
  apply divEven_le (Nat.mul_pos positive (Nat.two_pow_pos _))
  have whole := (Nat.div_lt_iff_lt_mul positive).mp (lt_spacing format num den)
  rw [Nat.pow_add] at whole
  linarith

theorem holds_nearest (format : Format) (num : Nat) (positive : 0 < den) :
    Holds format (format.nearest num den) :=
  ⟨_, _, nearest_eq format num den, significand_le format num positive, finest_le_spacing format num den⟩

theorem Holds.nearest_self (held : Holds format bound) (precise : 0 < format.precision) :
    format.nearest bound 1 = bound :=
  Nat.le_antisymm (held.nearest_le precise Nat.one_pos (Nat.mul_one bound).ge)
    (held.le_nearest precise Nat.one_pos (Nat.mul_one bound).le)

theorem nearest_scale (format : Format) (num den : Nat) {scale : Nat} (positive : 0 < scale) :
    format.nearest (num * scale) (den * scale) = format.nearest num den := by
  have spacing : format.spacing (num * scale) (den * scale) = format.spacing num den := by
    unfold Format.spacing
    rw [Nat.mul_div_mul_right _ _ positive]
  rw [nearest_eq, nearest_eq, spacing, Nat.mul_right_comm, divEven_scale _ _ positive]

theorem nearest_congr (format : Format) {first second below below' : Nat} (positive : 0 < below)
    (positive' : 0 < below') (same : first * below' = second * below) :
    format.nearest first below = format.nearest second below' := by
  rw [← nearest_scale format first below positive', same, Nat.mul_comm below,
    nearest_scale format second below' positive]

/-- A number of the format is found again from anything within an eighth of its spacing. -/
theorem Holds.nearest_of_near {units : Nat} (held : Holds format bound) (precise : 0 < format.precision)
    (above : 8 * units ≤ 8 * bound + 2 ^ format.spacing bound 1)
    (below : 8 * bound ≤ 8 * units + 2 ^ format.spacing bound 1) : format.nearest units 1 = bound := by
  obtain ⟨count, multiple⟩ := held.dvd precise
  have small := lt_spacing format bound 1
  have opens := @spacing_opens format bound 1 precise
  have finest := finest_le_spacing format bound 1
  rw [Nat.div_one] at small opens
  generalize format.spacing bound 1 = step at above below multiple small opens finest
  have coarser : format.spacing units 1 ≤ step := by
    apply spacing_le precise finest
    rw [Nat.div_one]
    -- A whole step lies between a multiple of the spacing and the end of its binade.
    have room : (count + 1) * 2 ^ step ≤ 2 ^ format.precision * 2 ^ step := by
      apply Nat.mul_le_mul_right
      rw [multiple, Nat.pow_add, Nat.mul_lt_mul_left (Nat.two_pow_pos step)] at small
      exact small
    rw [Nat.add_mul, Nat.mul_comm count, ← multiple, ← Nat.pow_add,
      Nat.add_comm format.precision] at room
    have positive := Nat.two_pow_pos step
    omega
  -- Below a power of two the spacing may be half as wide, which still leaves room for an eighth.
  have finer : step ≤ format.spacing units 1 + 1 := by
    rcases Nat.eq_or_lt_of_le finest with same | larger
    · rw [← same]
      exact Nat.le_succ_of_le (finest_le_spacing format units 1)
    have half : 2 * 2 ^ (step + format.precision - 2) ≤ bound := by
      rw [← Nat.pow_succ']
      convert opens larger using 2
      omega
    have part : 2 ^ step ≤ 2 * 2 ^ (step + format.precision - 2) := by
      rw [← Nat.pow_succ']
      exact Nat.pow_le_pow_right (by omega) (by omega)
    have large : 2 ^ (step + format.precision - 2) ≤ units / 1 := by
      rw [Nat.div_one]
      omega
    have reaches := @le_spacing format units 1 _ large
    omega
  have pair : 2 ^ step ≤ 2 * 2 ^ format.spacing units 1 := by
    rw [← Nat.pow_succ']
    exact Nat.pow_le_pow_right (by omega) finer
  obtain ⟨whole, same⟩ : 2 ^ format.spacing units 1 ∣ bound := by
    rw [multiple]
    exact Nat.dvd_mul_right_of_dvd (Nat.pow_dvd_pow 2 coarser) count
  have positive := Nat.two_pow_pos (format.spacing units 1)
  have found : divEven units (1 * 2 ^ format.spacing units 1) = whole := by
    apply divEven_of_near <;> linarith
  rw [nearest_eq, found, Nat.mul_comm, ← same]

end

theorem round_of_lt {format : Format} {num den : Nat} (negative : Bool)
    (small : format.nearest num den < 2 ^ format.limit) :
    format.round negative num den = .finite negative (format.nearest num den) := if_pos small

theorem round_eq_finite {format : Format} {num den units : Nat} {negative sign : Bool}
    (rounds : format.round negative num den = .finite sign units) :
    negative = sign ∧ format.nearest num den = units ∧ units < 2 ^ format.limit := by
  unfold Format.round at rounds
  dsimp only at rounds
  split at rounds
  next small =>
    cases rounds
    exact ⟨rfl, rfl, small⟩
  next => cases rounds

theorem round_cases (format : Format) (negative : Bool) (num den : Nat) :
    format.round negative num den = .infinite negative ∨
      ∃ units, format.round negative num den = .finite negative units := by
  by_cases small : format.nearest num den < 2 ^ format.limit
  · exact .inr ⟨_, round_of_lt negative small⟩
  · exact .inl (if_neg small)

/-- A sign does not change how a magnitude is rounded. -/
theorem round_signed {format : Format} {num den units : Nat} (rounds : format.round false num den = .finite false units)
    (negative : Bool) : format.round negative num den = .finite negative units := by
  obtain ⟨-, same, small⟩ := round_eq_finite rounds
  rw [round_of_lt negative (same.trans_lt small), same]

theorem toSingle_finite (negative : Bool) (units : Nat) :
    (Number.finite negative units).toSingle = Format.single.round negative units 1 := rfl

theorem isSingle_finite_iff (negative : Bool) (units : Nat) : (Number.finite negative units).IsSingle ↔
    Holds .single units ∧ units < 2 ^ Format.single.limit := by
  rw [Number.IsSingle, toSingle_finite]
  constructor
  · intro single
    obtain ⟨-, same, small⟩ := round_eq_finite single
    refine ⟨?_, small⟩
    rw [← same]
    exact holds_nearest .single units Nat.one_pos
  · intro ⟨held, small⟩
    have same := held.nearest_self (show 0 < Format.single.precision by decide)
    rw [← same] at small
    rw [round_of_lt negative small, same]

theorem isSingle_magnitude {negative : Bool} {units : Nat} (single : (Number.finite negative units).IsSingle) :
    (Number.finite false units).IsSingle := by
  rw [isSingle_finite_iff] at single ⊢
  exact single

theorem isSingle_power (negative : Bool) {exponent : Nat} (finest : Format.single.finest ≤ exponent)
    (limit : exponent < Format.single.limit) : (Number.finite negative (Nat.pow 2 exponent)).IsSingle := by
  rw [isSingle_finite_iff, Nat.pow_eq]
  constructor
  · exact ⟨1, exponent, (Nat.one_mul _).symm, Nat.one_le_two_pow, finest⟩
  · generalize Format.single.limit = bound at limit ⊢
    exact Nat.pow_lt_pow_right Nat.one_lt_two limit

theorem toSingle_cases (negative : Bool) (units : Nat) :
    (Number.finite negative units).toSingle = .infinite negative ∨
      ∃ rounded, (Number.finite negative units).toSingle = .finite negative rounded ∧
        (Number.finite negative rounded).IsSingle := by
  rw [toSingle_finite]
  rcases round_cases .single negative units 1 with large | ⟨rounded, same⟩
  · exact .inl large
  · refine .inr ⟨rounded, same, (isSingle_finite_iff negative rounded).mpr ?_⟩
    obtain ⟨-, nearest, small⟩ := round_eq_finite same
    exact ⟨nearest ▸ holds_nearest .single units Nat.one_pos, small⟩

/-- A single is a count of its spacing, with all 24 bits above the finest one. -/
theorem single_count {units : Nat} {negative : Bool} (single : (Number.finite negative units).IsSingle) :
    ∃ count exponent, Format.single.spacing units 1 = exponent ∧ units = count * 2 ^ exponent ∧
      count < 2 ^ 24 ∧ 925 ≤ exponent ∧ exponent ≤ 1178 ∧ (925 < exponent → 2 ^ 23 ≤ count) := by
  obtain ⟨held, small⟩ := (isSingle_finite_iff negative units).mp single
  have precise : 0 < Format.single.precision := by decide
  obtain ⟨count, multiple⟩ := held.dvd precise
  have binade := lt_spacing .single units 1
  have opens := @spacing_opens .single units 1 precise
  have finest : 925 ≤ Format.single.spacing units 1 := finest_le_spacing .single units 1
  have coarse : Format.single.spacing units 1 ≤ 1178 := by
    apply spacing_le precise (by decide)
    rw [Nat.div_one, show 1178 + Format.single.precision = Format.single.limit from rfl]
    exact small
  rw [Nat.mul_comm] at multiple
  refine ⟨count, _, rfl, multiple, ?_⟩
  generalize Format.single.spacing units 1 = exponent at *
  have positive := Nat.two_pow_pos exponent
  rw [Nat.div_one, multiple, Nat.add_comm, Nat.pow_add, Nat.mul_lt_mul_right positive] at binade
  refine ⟨binade, finest, coarse, fun larger => ?_⟩
  have long := opens larger
  rw [Nat.div_one, multiple, opening_eq precise] at long
  exact Nat.le_of_mul_le_mul_right long positive

theorem isSingle_toSingle (number : Number) : number.toSingle.IsSingle := by
  cases number with
  | nan => rfl
  | infinite negative => rfl
  | finite negative units =>
    rcases toSingle_cases negative units with large | ⟨rounded, same, single⟩
    · rw [large]
      rfl
    · rw [same]
      exact single

theorem isSingle_neg {number : Number} (single : number.IsSingle) : number.neg.IsSingle := by
  cases number with
  | nan => rfl
  | infinite negative => rfl
  | finite negative units =>
    rw [isSingle_finite_iff] at single
    exact (isSingle_finite_iff (!negative) units).mpr single

end Lox.Proofs
