import Lox.Proofs.DoubleRounding
import Lox.Proofs.DoubleText

/-! Reading a value as a single, by way of the nearest double. Reading keeps the order of values. Around
a single that is no power of two it is also even-handed: a value is read as the single exactly if the
value at the same distance on the other side is. At a power of two the spacing of singles changes; what is
read as the power is known there up to the spacing of doubles. -/

namespace Lox.Proofs
open Decimal Number

/-- The single that a value is read as, by way of the nearest double, in units. -/
def reading (num den : Nat) : Nat := Format.single.nearest (Format.double.nearest num den) 1

section
variable {format : Format} {num den num' den' units exponent : Nat}

theorem divEven_reflect {count : Nat} (positive : 0 < den) (total : num + num' = 2 * count * den) :
    divEven num den + divEven num' den = 2 * count := by
  have parts := Nat.div_add_mod' num den
  have parts' := Nat.div_add_mod' num' den
  have small := Nat.mod_lt num positive
  have small' := Nat.mod_lt num' positive
  have atMost : num / den + num' / den ≤ 2 * count := by
    apply Nat.le_of_mul_le_mul_right _ positive
    linarith [Nat.div_mul_le_self num den, Nat.div_mul_le_self num' den]
  have atLeast : 2 * count < num / den + num' / den + 2 := by
    apply Nat.lt_of_mul_lt_mul_right (a := den)
    linarith
  unfold divEven
  dsimp only
  -- The remainders are both zero or they make up the divisor, and then one quotient is even.
  rcases Nat.lt_or_eq_of_le atMost with less | same
  · have odd : num / den + num' / den + 1 = 2 * count := by omega
    have remainders : num % den + num' % den = den := by
      rw [← odd] at total
      linarith
    split <;> split <;> omega
  · have remainders : num % den + num' % den = 0 := by
      rw [← same] at total
      linarith
    rw [if_pos (by omega), if_pos (by omega), same]

/-- Values at one distance from a multiple of their spacing are rounded to numbers at one distance. -/
theorem nearest_reflect (positive : 0 < den) (multiple : 2 ^ format.spacing num den ∣ units)
    (same : format.spacing num' den = format.spacing num den) (total : num + num' = 2 * units * den) :
    format.nearest num den + format.nearest num' den = 2 * units := by
  obtain ⟨count, rfl⟩ := multiple
  have counted : num + num' = 2 * count * (den * 2 ^ format.spacing num den) := by
    rw [total]
    ring
  rw [nearest_eq, nearest_eq, same, ← Nat.add_mul,
    divEven_reflect (Nat.mul_pos positive (Nat.two_pow_pos _)) counted]
  ring

theorem spacing_of_binade (opens : 2 ^ exponent ≤ num / den) (closes : num / den < 2 ^ (exponent + 1)) :
    format.spacing num den = max format.finest (exponent + 1 - format.precision) := by
  have some : num / den ≠ 0 := (Nat.lt_of_lt_of_le (Nat.two_pow_pos exponent) opens).ne'
  rw [Format.spacing, (Nat.log2_eq_iff some).mpr ⟨opens, closes⟩]

theorem Holds.double (held : Holds .single units) : Holds .double units := by
  obtain ⟨significand, exponent, same, short, -⟩ := held
  refine ⟨significand, exponent, same, ?_, Nat.zero_le exponent⟩
  exact short.trans (Nat.pow_le_pow_right (by omega) (by decide))

theorem reading_self (held : Holds .single units) : reading units 1 = units := by
  rw [reading, held.double.nearest_self (by decide), held.nearest_self (by decide)]

/-- Reading keeps the order of values. -/
theorem reading_mono (positive : 0 < den) (positive' : 0 < den') (order : (num / den : ℚ) ≤ num' / den') :
    reading num den ≤ reading num' den' := by
  apply nearest_mono (by decide) Nat.one_pos Nat.one_pos
  rw [Nat.cast_one, div_one, div_one]
  exact_mod_cast nearest_mono (show 0 < Format.double.precision by decide) positive positive' order

theorem reading_between {low high below below' : Nat} (positive : 0 < den) (positive' : 0 < below)
    (positive'' : 0 < below') (reads : reading low below = units) (reads' : reading high below' = units)
    (between : (num / den : ℚ) ∈ Set.uIcc (low / below : ℚ) (high / below')) : reading num den = units := by
  rcases Set.mem_uIcc.mp between with ⟨above, under⟩ | ⟨above, under⟩
  · apply Nat.le_antisymm
    · exact (reading_mono positive positive'' under).trans_eq reads'
    · exact reads.symm.trans_le (reading_mono positive' positive above)
  · apply Nat.le_antisymm
    · exact (reading_mono positive positive' under).trans_eq reads
    · exact reads'.symm.trans_le (reading_mono positive'' positive above)

/-- What is read below a single lies below it, and so does the double on the way. -/
theorem lt_of_reading_lt (held : Holds .single units) (positive : 0 < den) (less : reading num den < units) :
    num < units * den ∧ Format.double.nearest num den < units := by
  have double : Format.double.nearest num den < units := by
    apply Nat.lt_of_not_le
    intro above
    exact Nat.not_le_of_lt less (held.le_nearest (by decide) Nat.one_pos (by rwa [Nat.mul_one]))
  refine ⟨Nat.lt_of_not_le fun above => ?_, double⟩
  exact Nat.not_le_of_lt double (held.double.le_nearest (by decide) positive above)

theorem gt_of_reading_gt (held : Holds .single units) (positive : 0 < den) (more : units < reading num den) :
    units * den < num ∧ units < Format.double.nearest num den := by
  have double : units < Format.double.nearest num den := by
    apply Nat.lt_of_not_le
    intro below
    exact Nat.not_le_of_lt more (held.nearest_le (by decide) Nat.one_pos (by rwa [Nat.mul_one]))
  refine ⟨Nat.lt_of_not_le fun below => ?_, double⟩
  exact Nat.not_le_of_lt double (held.double.nearest_le (by decide) positive below)

/-- A single with both its neighbours in one binade. -/
structure Inner (units exponent : Nat) : Prop where
  held : Holds .single units
  opens : 2 ^ exponent + 2 ^ Format.single.spacing units 1 ≤ units
  closes : units + 2 ^ Format.single.spacing units 1 ≤ 2 ^ (exponent + 1)

/-- Every other single is a power of two. -/
theorem power_or_inner (held : Holds .single units) (some : 0 < units) :
    units = 2 ^ units.log2 ∨ Inner units units.log2 := by
  have opens := Nat.log2_self_le some.ne'
  have closes : units < 2 ^ (units.log2 + 1) := Nat.lt_log2_self
  have multiple := held.dvd (show 0 < Format.single.precision by decide)
  have within : Format.single.spacing units 1 < units.log2 + 1 := by
    apply (Nat.pow_lt_pow_iff_right Nat.one_lt_two).mp
    exact Nat.lt_of_le_of_lt (Nat.le_of_dvd some multiple) closes
  have multiple' : 2 ^ Format.single.spacing units 1 ∣ 2 ^ units.log2 := Nat.pow_dvd_pow 2 (Nat.le_of_lt_succ within)
  have multiple'' : 2 ^ Format.single.spacing units 1 ∣ 2 ^ (units.log2 + 1) := Nat.pow_dvd_pow 2 within.le
  rcases Nat.eq_or_lt_of_le opens with same | less
  · exact .inl same.symm
  · -- Between multiples of the spacing lies at least one spacing.
    have above := Nat.le_of_dvd (by omega) (Nat.dvd_sub multiple multiple')
    have below := Nat.le_of_dvd (by omega) (Nat.dvd_sub multiple'' multiple)
    exact .inr ⟨held, by omega, by omega⟩

theorem Inner.holds_neighbours (inner : Inner units exponent) :
    Holds .single (units - 2 ^ Format.single.spacing units 1) ∧
      Holds .single (units + 2 ^ Format.single.spacing units 1) := by
  have binade := lt_spacing .single units 1
  rw [Nat.div_one, Nat.pow_add] at binade
  obtain ⟨count, multiple⟩ := inner.held.dvd (show 0 < Format.single.precision by decide)
  have finest := finest_le_spacing .single units 1
  generalize Format.single.spacing units 1 = step at binade multiple finest ⊢
  have short : count < 2 ^ Format.single.precision := by
    apply Nat.lt_of_mul_lt_mul_left (a := 2 ^ step)
    rwa [multiple] at binade
  constructor
  · refine ⟨count - 1, step, ?_, by omega, finest⟩
    rw [multiple, Nat.sub_mul, Nat.one_mul, Nat.mul_comm]
  · refine ⟨count + 1, step, ?_, short, finest⟩
    rw [multiple, Nat.add_mul, Nat.one_mul, Nat.mul_comm]

/-- Between the neighbours of the single, every format has one spacing. -/
theorem Inner.spacing_eq (inner : Inner units exponent) (format : Format) (positive : 0 < den)
    (above : (units - 2 ^ Format.single.spacing units 1) * den < num)
    (below : num < (units + 2 ^ Format.single.spacing units 1) * den) :
    format.spacing num den = format.spacing units 1 := by
  obtain ⟨-, opens, closes⟩ := inner
  have step := Nat.two_pow_pos (Format.single.spacing units 1)
  generalize 2 ^ Format.single.spacing units 1 = width at opens closes above below step
  have low : 2 ^ exponent ≤ num / den := by
    rw [Nat.le_div_iff_mul_le positive]
    exact (Nat.mul_le_mul_right den (show 2 ^ exponent ≤ units - width by omega)).trans above.le
  have high : num / den < 2 ^ (exponent + 1) := by
    rw [Nat.div_lt_iff_lt_mul positive]
    exact Nat.lt_of_lt_of_le below (Nat.mul_le_mul_right den closes)
  rw [spacing_of_binade low high, spacing_of_binade (show 2 ^ exponent ≤ units / 1 by rw [Nat.div_one]; omega)
    (show units / 1 < 2 ^ (exponent + 1) by rw [Nat.div_one]; omega)]

theorem Inner.spacing_le (inner : Inner units exponent) : 2 ^ Format.single.spacing units 1 ≤ units :=
  (Nat.le_add_left _ _).trans inner.opens

/-- A value that is read as the single lies between its neighbours, and so does the double on the way. -/
theorem Inner.between_neighbours (inner : Inner units exponent) (positive : 0 < den) (reads : reading num den = units) :
    (units - 2 ^ Format.single.spacing units 1) * den < num ∧ num < (units + 2 ^ Format.single.spacing units 1) * den ∧
      units - 2 ^ Format.single.spacing units 1 < Format.double.nearest num den ∧
      Format.double.nearest num den < units + 2 ^ Format.single.spacing units 1 := by
  obtain ⟨lower, upper⟩ := inner.holds_neighbours
  have step := Nat.two_pow_pos (Format.single.spacing units 1)
  have room := inner.spacing_le
  obtain ⟨above, above'⟩ := gt_of_reading_gt lower positive (by rw [reads]; exact Nat.sub_lt_self step room)
  obtain ⟨below, below'⟩ := lt_of_reading_lt upper positive (by rw [reads]; exact Nat.lt_add_of_pos_right step)
  exact ⟨above, below, above', below'⟩

/-- A value and its mirror image are read as the same single. -/
theorem Inner.reading_reflect (inner : Inner units exponent) (positive : 0 < den) (total : num + num' = 2 * units * den)
    (reads : reading num den = units) : reading num' den = units := by
  obtain ⟨above, below, above', below'⟩ := inner.between_neighbours positive reads
  have room := inner.spacing_le
  have room' := Nat.mul_le_mul_right den room
  have doubles : Format.double.nearest num den + Format.double.nearest num' den = 2 * units := by
    have spacing := inner.spacing_eq .double positive above below
    have spacing' : Format.double.spacing num' den = Format.double.spacing units 1 := by
      rw [Nat.sub_mul] at above
      rw [Nat.add_mul] at below
      rw [Nat.mul_assoc] at total
      apply inner.spacing_eq .double positive
      · rw [Nat.sub_mul]
        omega
      · rw [Nat.add_mul]
        omega
    apply nearest_reflect positive _ (spacing'.trans spacing.symm) total
    rw [spacing]
    exact inner.held.double.dvd (by decide)
  have singles : reading num den + reading num' den = 2 * units := by
    have spacing := inner.spacing_eq .single Nat.one_pos (by rwa [Nat.mul_one]) (by rwa [Nat.mul_one])
    have spacing' : Format.single.spacing (Format.double.nearest num' den) 1 = Format.single.spacing units 1 := by
      apply inner.spacing_eq .single Nat.one_pos <;> omega
    apply nearest_reflect Nat.one_pos _ (spacing'.trans spacing.symm) (by rw [doubles, Nat.mul_one])
    rw [spacing]
    exact inner.held.dvd (by decide)
  omega

/-- What is no further away from the single than a value that is read as it, is read as it too. -/
theorem Inner.reading_of_closer (inner : Inner units exponent) (positive : 0 < den) (positive' : 0 < den')
    (reads : reading num den = units) (closer : |(num' / den' : ℚ) - units| ≤ |(num / den : ℚ) - units|) :
    reading num' den' = units := by
  have den_pos : (0 : ℚ) < den := by exact_mod_cast positive
  obtain ⟨mirror, total⟩ : ∃ mirror, num + mirror = 2 * units * den := by
    obtain ⟨-, below, -⟩ := inner.between_neighbours positive reads
    have room' := Nat.mul_le_mul_right den inner.spacing_le
    refine ⟨2 * units * den - num, Nat.add_sub_cancel' ?_⟩
    rw [Nat.add_mul] at below
    rw [Nat.mul_assoc]
    omega
  have reads' := inner.reading_reflect positive total reads
  have image : (mirror / den : ℚ) = 2 * units - num / den := by
    rw [eq_sub_iff_add_eq, ← add_div, div_eq_iff den_pos.ne', add_comm]
    exact_mod_cast total
  apply reading_between positive' positive positive reads reads'
  rw [image, Set.mem_uIcc]
  rcases le_total (num / den : ℚ) units with less | more
  · rw [abs_of_nonpos (sub_nonpos.mpr less), abs_le] at closer
    left
    constructor <;> linarith
  · rw [abs_of_nonneg (sub_nonneg.mpr more), abs_le] at closer
    right
    constructor <;> linarith

end

/-- Half of the spacing of singles in the binade that ends at 2^`top`. -/
def halfSpacing (top : Nat) : Nat := 2 ^ max 924 (top - 25)

/-- The spacing of doubles above a power of two. -/
def margin (exponent : Nat) : Nat := 2 ^ (exponent - 52)

/-- Nearer to the power of two than to the singles next to it, by a margin. -/
def WellInside (exponent num den : Nat) : Prop :=
  (2 ^ exponent - halfSpacing exponent + margin exponent) * den ≤ num ∧
    num ≤ (2 ^ exponent + halfSpacing (exponent + 1) - margin exponent) * den

/-- Further from the power of two than from a single next to it, by a margin. -/
def WellOutside (exponent num den : Nat) : Prop :=
  num ≤ (2 ^ exponent - halfSpacing exponent - margin exponent) * den ∨
    (2 ^ exponent + halfSpacing (exponent + 1) + margin exponent) * den ≤ num

instance (exponent num den : Nat) : Decidable (WellInside exponent num den) := inferInstanceAs (Decidable (_ ∧ _))

section
variable {format : Format} {exponent top units bound num den : Nat}

theorem two_mul_halfSpacing (top : Nat) : 2 * halfSpacing top = 2 ^ max 925 (top - 24) := by
  rw [halfSpacing, ← Nat.pow_succ']
  congr 1
  omega

theorem margin_lt_halfSpacing (fine : 925 ≤ exponent) : margin exponent < halfSpacing exponent :=
  Nat.pow_lt_pow_right Nat.one_lt_two (by omega)

theorem halfSpacing_le_succ (top : Nat) : halfSpacing top ≤ halfSpacing (top + 1) :=
  Nat.pow_le_pow_right Nat.two_pos (by omega)

theorem halfSpacing_room (fine : 925 ≤ exponent) : 2 * halfSpacing (exponent + 1) ≤ 2 ^ exponent := by
  rw [two_mul_halfSpacing]
  exact Nat.pow_le_pow_right Nat.two_pos (by omega)

theorem margin_dvd (fine : 925 ≤ exponent) : margin exponent ∣ 2 ^ exponent ∧
    margin exponent ∣ halfSpacing exponent ∧ margin exponent ∣ halfSpacing (exponent + 1) :=
  ⟨Nat.pow_dvd_pow 2 (by omega), Nat.pow_dvd_pow 2 (by omega), Nat.pow_dvd_pow 2 (by omega)⟩

theorem spacing_le_halfSpacing (closes : units < 2 ^ top) :
    2 ^ Format.single.spacing units 1 ≤ 2 * halfSpacing top := by
  rw [two_mul_halfSpacing]
  apply Nat.pow_le_pow_right Nat.two_pos
  apply spacing_le (by decide) (Nat.le_max_left _ _)
  rw [Nat.div_one]
  apply Nat.lt_of_lt_of_le closes
  apply Nat.pow_le_pow_right Nat.two_pos
  change top ≤ max 925 (top - 24) + 24
  omega

theorem spacing_eq_halfSpacing (opens : 2 ^ exponent ≤ units) (closes : units < 2 ^ (exponent + 1)) :
    2 ^ Format.single.spacing units 1 = 2 * halfSpacing (exponent + 1) := by
  have opens' : 2 ^ exponent ≤ units / 1 := by rwa [Nat.div_one]
  rw [spacing_of_binade opens' (by rwa [Nat.div_one]), two_mul_halfSpacing]
  rfl

/-- Multiples of the margin are doubles up to the next power of two, so they are rounded once only. -/
theorem reading_of_margin_dvd (fine : 925 ≤ exponent) (multiple : margin exponent ∣ units)
    (small : units < 2 ^ (exponent + 1)) : reading units 1 = Format.single.nearest units 1 := by
  obtain ⟨count, rfl⟩ := multiple
  have held : Holds .double (margin exponent * count) := by
    refine ⟨count, exponent - 52, Nat.mul_comm _ _, ?_, Nat.zero_le _⟩
    apply Nat.le_of_mul_le_mul_left _ (Nat.two_pow_pos (exponent - 52))
    change margin exponent * count ≤ 2 ^ (exponent - 52) * 2 ^ 53
    rw [← Nat.pow_add, show exponent - 52 + 53 = exponent + 1 by omega]
    exact small.le
  rw [reading, held.nearest_self (by decide)]

theorem nearest_of_close (multiple : 2 ^ format.spacing units 1 ∣ bound)
    (above : 2 * units < 2 * bound + 2 ^ format.spacing units 1)
    (below : 2 * bound < 2 * units + 2 ^ format.spacing units 1) : format.nearest units 1 = bound := by
  obtain ⟨count, same⟩ := multiple
  have found : divEven units (1 * 2 ^ format.spacing units 1) = count := by
    apply divEven_of_near <;> linarith
  rw [nearest_eq, found, same, Nat.mul_comm]

/-- Where reading turns to the power from below: a margin before and a margin after the middle. -/
theorem reading_below_power (fine : 925 ≤ exponent) :
    reading (2 ^ exponent - halfSpacing exponent - margin exponent) 1 < 2 ^ exponent ∧
      reading (2 ^ exponent - halfSpacing exponent + margin exponent) 1 = 2 ^ exponent := by
  obtain ⟨before, rfl⟩ : ∃ before, exponent = before + 1 := ⟨exponent - 1, by omega⟩
  have narrow := margin_lt_halfSpacing fine
  have room := halfSpacing_room fine
  have order := halfSpacing_le_succ (before + 1)
  have double : 2 ^ (before + 1) = 2 * 2 ^ before := Nat.pow_succ'
  have positive : 0 < margin (before + 1) := Nat.two_pow_pos _
  obtain ⟨whole, part, -⟩ := margin_dvd fine
  constructor
  · rw [reading_of_margin_dvd fine (Nat.dvd_sub (Nat.dvd_sub whole part) (Nat.dvd_refl _)) (by omega)]
    generalize value : 2 ^ (before + 1) - halfSpacing (before + 1) - margin (before + 1) = units
    obtain ⟨-, error⟩ := nearest_error_units .single units Nat.one_pos
    have spacing := @spacing_le_halfSpacing (before + 1) units (by omega)
    omega
  · rw [reading_of_margin_dvd fine (Nat.dvd_add (Nat.dvd_sub whole part) (Nat.dvd_refl _)) (by omega)]
    generalize value : 2 ^ (before + 1) - halfSpacing (before + 1) + margin (before + 1) = units
    have spacing := @spacing_eq_halfSpacing before units (by omega) (by omega)
    apply nearest_of_close
    · rw [spacing, two_mul_halfSpacing]
      exact Nat.pow_dvd_pow 2 (by omega)
    · omega
    · omega

/-- Where reading turns away from the power above it. -/
theorem reading_above_power (fine : 925 ≤ exponent) :
    reading (2 ^ exponent + halfSpacing (exponent + 1) - margin exponent) 1 = 2 ^ exponent ∧
      2 ^ exponent < reading (2 ^ exponent + halfSpacing (exponent + 1) + margin exponent) 1 := by
  have narrow := margin_lt_halfSpacing fine
  have room := halfSpacing_room fine
  have order := halfSpacing_le_succ exponent
  have double : 2 ^ (exponent + 1) = 2 * 2 ^ exponent := Nat.pow_succ'
  have positive : 0 < margin exponent := Nat.two_pow_pos _
  obtain ⟨whole, -, part⟩ := margin_dvd fine
  constructor
  · rw [reading_of_margin_dvd fine (Nat.dvd_sub (Nat.dvd_add whole part) (Nat.dvd_refl _)) (by omega)]
    generalize value : 2 ^ exponent + halfSpacing (exponent + 1) - margin exponent = units
    have spacing := @spacing_eq_halfSpacing exponent units (by omega) (by omega)
    apply nearest_of_close
    · rw [spacing, two_mul_halfSpacing]
      exact Nat.pow_dvd_pow 2 (by omega)
    · omega
    · omega
  · rw [reading_of_margin_dvd fine (Nat.dvd_add (Nat.dvd_add whole part) (Nat.dvd_refl _)) (by omega)]
    generalize value : 2 ^ exponent + halfSpacing (exponent + 1) + margin exponent = units
    obtain ⟨error, -⟩ := nearest_error_units .single units Nat.one_pos
    have spacing := @spacing_le_halfSpacing (exponent + 1) units (by omega)
    omega

theorem WellInside.reading_eq (inside : WellInside exponent num den) (fine : 925 ≤ exponent) (positive : 0 < den) :
    reading num den = 2 ^ exponent := by
  have den_pos : (0 : ℚ) < den := by exact_mod_cast positive
  apply reading_between positive Nat.one_pos Nat.one_pos (reading_below_power fine).2 (reading_above_power fine).1
  apply Set.mem_uIcc_of_le
  · rw [Nat.cast_one, div_one, le_div_iff₀ den_pos]
    exact_mod_cast inside.1
  · rw [Nat.cast_one, div_one, div_le_iff₀ den_pos]
    exact_mod_cast inside.2

theorem WellOutside.reading_ne (outside : WellOutside exponent num den) (fine : 925 ≤ exponent) (positive : 0 < den) :
    reading num den ≠ 2 ^ exponent := by
  have den_pos : (0 : ℚ) < den := by exact_mod_cast positive
  rcases outside with below | above
  · apply Nat.ne_of_lt
    apply Nat.lt_of_le_of_lt _ (reading_below_power fine).1
    apply reading_mono positive Nat.one_pos
    rw [Nat.cast_one, div_one, div_le_iff₀ den_pos]
    exact_mod_cast below
  · apply Nat.ne_of_gt
    apply Nat.lt_of_lt_of_le (reading_above_power fine).2
    apply reading_mono Nat.one_pos positive
    rw [Nat.cast_one, div_one, le_div_iff₀ den_pos]
    exact_mod_cast above

end

end Lox.Proofs
