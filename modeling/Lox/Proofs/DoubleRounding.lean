import Lox.Proofs.Rounding
import Lox.Proofs.NumberText

/-! Rounding to a double and then to a single. The numbers of a format cut the line into cells, and
a double can only be misleading when it stands in the middle of a cell of singles although the value
it was rounded from does not. Sums, products and quotients of singles never come that close to the
middle of a cell without meeting it. -/

namespace Lox.Proofs

/-- The value lies between a number of the format and the next one. -/
structure Cell (format : Format) (num den count : Nat) : Prop where
  lower : count * 2 ^ format.spacing num den * den ≤ num
  upper : num < (count + 1) * 2 ^ format.spacing num den * den

section
variable {format fine coarse : Format} {num den count : Nat}

theorem exists_cell (format : Format) (num : Nat) (positive : 0 < den) : ∃ count, Cell format num den count := by
  refine ⟨num / den / 2 ^ format.spacing num den, ?_, ?_⟩
  · rw [← Nat.le_div_iff_mul_le positive]
    exact Nat.div_mul_le_self _ _
  · rw [← Nat.div_lt_iff_lt_mul positive, ← Nat.div_lt_iff_lt_mul (Nat.two_pow_pos _)]
    exact Nat.lt_succ_self _

theorem Cell.positive (cell : Cell format num den count) : 0 < den := by
  apply Nat.pos_of_ne_zero
  rintro rfl
  have upper := cell.upper
  rw [Nat.mul_zero] at upper
  exact absurd upper (Nat.not_lt_zero num)

theorem Cell.short (cell : Cell format num den count) : count < 2 ^ format.precision := by
  have inside := (Nat.le_div_iff_mul_le cell.positive).mpr cell.lower
  have bound := Nat.lt_of_le_of_lt inside (lt_spacing format num den)
  rw [Nat.add_comm, Nat.pow_add] at bound
  exact Nat.lt_of_mul_lt_mul_right bound

theorem Cell.nearest_lower (cell : Cell format num den count)
    (below : 2 * num < (2 * count + 1) * 2 ^ format.spacing num den * den) :
    format.nearest num den = count * 2 ^ format.spacing num den := by
  have lower := cell.lower
  have step := Nat.mul_pos cell.positive (Nat.two_pow_pos (format.spacing num den))
  rw [nearest_eq]
  congr 1
  apply divEven_of_near <;> linarith

theorem Cell.nearest_upper (cell : Cell format num den count)
    (above : (2 * count + 1) * 2 ^ format.spacing num den * den < 2 * num) :
    format.nearest num den = (count + 1) * 2 ^ format.spacing num den := by
  have upper := cell.upper
  have step := Nat.mul_pos cell.positive (Nat.two_pow_pos (format.spacing num den))
  rw [nearest_eq]
  congr 1
  apply divEven_of_near <;> linarith

/-- All values of a cell have the same spacing. -/
theorem Cell.spacing_eq {units : Nat} (cell : Cell format num den count) (precise : 0 < format.precision)
    (low : count * 2 ^ format.spacing num den ≤ units)
    (high : units < (count + 1) * 2 ^ format.spacing num den) :
    format.spacing units 1 = format.spacing num den := by
  apply Nat.le_antisymm
  · apply spacing_le precise (finest_le_spacing format num den)
    rw [Nat.div_one, Nat.add_comm, Nat.pow_add]
    exact Nat.lt_of_lt_of_le high (Nat.mul_le_mul_right _ cell.short)
  · rcases Nat.eq_or_lt_of_le (finest_le_spacing format num den) with finest | coarse
    · rw [← finest]
      exact finest_le_spacing format units 1
    · have opens := spacing_opens precise coarse
      have power := opening_eq precise (format.spacing num den)
      have long : 2 ^ (format.precision - 1) ≤ count := by
        have upper := (Nat.div_lt_iff_lt_mul cell.positive).mpr cell.upper
        rw [power] at opens
        apply Nat.le_of_lt_succ
        exact Nat.lt_of_mul_lt_mul_right (Nat.lt_of_le_of_lt opens upper)
      have large : 2 ^ (format.spacing num den + format.precision - 1) ≤ units / 1 := by
        rw [Nat.div_one, power]
        exact Nat.le_trans (Nat.mul_le_mul_right _ long) low
      have reaches := @le_spacing format units 1 _ large
      omega

theorem Cell.transfer {units : Nat} (cell : Cell format num den count) (precise : 0 < format.precision)
    (low : count * 2 ^ format.spacing num den ≤ units)
    (high : units < (count + 1) * 2 ^ format.spacing num den) : Cell format units 1 count := by
  have same := cell.spacing_eq precise low high
  constructor
  · rwa [same, Nat.mul_one]
  · rwa [same, Nat.mul_one]

theorem Cell.nearest_low_part {units : Nat} (cell : Cell format num den count) (precise : 0 < format.precision)
    (low : count * 2 ^ format.spacing num den ≤ units)
    (near : 2 * units < (2 * count + 1) * 2 ^ format.spacing num den) :
    format.nearest units 1 = count * 2 ^ format.spacing num den := by
  have high : units < (count + 1) * 2 ^ format.spacing num den := by linarith
  have moved := cell.transfer precise low high
  have same := cell.spacing_eq precise low high
  rw [← same] at near ⊢
  apply moved.nearest_lower
  rwa [Nat.mul_one]

theorem Cell.nearest_high_part {units : Nat} (cell : Cell format num den count) (precise : 0 < format.precision)
    (near : (2 * count + 1) * 2 ^ format.spacing num den < 2 * units)
    (high : units ≤ (count + 1) * 2 ^ format.spacing num den) :
    format.nearest units 1 = (count + 1) * 2 ^ format.spacing num den := by
  rcases Nat.lt_or_eq_of_le high with inside | rfl
  · have low : count * 2 ^ format.spacing num den ≤ units := by linarith
    have moved := cell.transfer precise low inside
    have same := cell.spacing_eq precise low inside
    rw [← same] at near ⊢
    apply moved.nearest_upper
    rwa [Nat.mul_one]
  · have held : Holds format ((count + 1) * 2 ^ format.spacing num den) :=
      ⟨_, _, rfl, cell.short, finest_le_spacing format num den⟩
    exact held.nearest_self precise

/-- Rounding twice is rounding once, unless the first rounding ends in the middle of a cell where the
value itself is not. -/
theorem nearest_nearest (precise : 0 < coarse.precision) (narrower : coarse.precision < fine.precision)
    (finer : fine.finest < coarse.finest) (positive : 0 < den)
    (clear : ∀ count, 2 * fine.nearest num den = (2 * count + 1) * 2 ^ coarse.spacing num den →
      fine.nearest num den * den = num) :
    coarse.nearest (fine.nearest num den) 1 = coarse.nearest num den := by
  obtain ⟨count, cell⟩ := exists_cell coarse num positive
  have coarsest := finest_le_spacing coarse num den
  obtain ⟨half, spacing⟩ : ∃ half, coarse.spacing num den = half + 1 :=
    ⟨coarse.spacing num den - 1, by omega⟩
  have step : 2 ^ coarse.spacing num den = 2 * 2 ^ half := by rw [spacing, Nat.pow_succ']
  -- The ends and the middle of the cell are numbers of the finer format, so it does not cross them.
  have held : ∀ part ≤ 2 * count + 2, Holds fine (part * 2 ^ half) := by
    intro part within
    refine ⟨part, half, rfl, ?_, by omega⟩
    have short := cell.short
    have bits : 2 * 2 ^ coarse.precision ≤ 2 ^ fine.precision := by
      rw [← Nat.pow_succ']
      exact Nat.pow_le_pow_right (by omega) narrower
    omega
  have above : ∀ part ≤ 2 * count + 2, part * 2 ^ half * den ≤ num → part * 2 ^ half ≤ fine.nearest num den :=
    fun part within => (held part within).le_nearest (by omega) positive
  have below : ∀ part ≤ 2 * count + 2, num ≤ part * 2 ^ half * den → fine.nearest num den ≤ part * 2 ^ half :=
    fun part within => (held part within).nearest_le (by omega) positive
  have lower := cell.lower
  have upper := cell.upper
  have low := above (2 * count) (by omega)
  have high := below (2 * count + 2) le_rfl
  have middle : 2 * fine.nearest num den = (2 * count + 1) * 2 ^ coarse.spacing num den →
      num = (2 * count + 1) * 2 ^ half * den := by
    intro ends
    rw [← clear count ends]
    congr 1
    rw [step] at ends
    linarith
  rcases Nat.lt_trichotomy num ((2 * count + 1) * 2 ^ half * den) with less | same | more
  · have side := below (2 * count + 1) (by omega) less.le
    rw [cell.nearest_lower (by rw [step]; linarith)]
    apply cell.nearest_low_part precise
    · rw [step] at lower ⊢
      linarith [low (by linarith)]
    · apply Nat.lt_of_le_of_ne
      · rw [step]
        linarith
      · intro ends
        have meets := middle ends
        omega
  · have exactly := Nat.le_antisymm (below (2 * count + 1) (by omega) same.le) (above (2 * count + 1) (by omega) same.ge)
    apply nearest_congr coarse Nat.one_pos positive
    rw [exactly, ← same, Nat.mul_one]
  · have side := above (2 * count + 1) (by omega) more.le
    rw [cell.nearest_upper (by rw [step]; linarith)]
    apply cell.nearest_high_part precise
    · apply Nat.lt_of_le_of_ne
      · rw [step]
        linarith
      · intro ends
        have meets := middle ends.symm
        omega
    · rw [step] at upper ⊢
      linarith [high (by linarith)]

end

/-- Going through a double makes no difference to the single that a value is rounded to. -/
structure Harmless (num den : Nat) : Prop where
  finite : Format.double.nearest num den < 2 ^ Format.double.limit
  same : Format.single.nearest (Format.double.nearest num den) 1 = Format.single.nearest num den

theorem Harmless.toSingle {num den : Nat} (harmless : Harmless num den) (negative : Bool) :
    (Format.double.round negative num den).toSingle = Format.single.round negative num den := by
  rw [round_of_lt negative harmless.finite, toSingle_finite]
  unfold Format.round
  rw [harmless.same]

theorem double_nearest_lt {num den exponent : Nat} (positive : 0 < den) (small : num ≤ 2 ^ exponent * den)
    (below : exponent < Format.double.limit) : Format.double.nearest num den < 2 ^ Format.double.limit := by
  have held : Holds .double (2 ^ exponent) := ⟨1, exponent, (Nat.one_mul _).symm, Nat.one_le_two_pow, Nat.zero_le _⟩
  apply Nat.lt_of_le_of_lt (held.nearest_le (by decide) positive small)
  generalize Format.double.limit = limit at below ⊢
  exact Nat.pow_lt_pow_right (by omega) below

theorem harmless_of_holds {num den units exponent : Nat} (held : Holds .double units) (positive : 0 < den)
    (same : units * den = num) (small : units ≤ 2 ^ exponent) (below : exponent < Format.double.limit) :
    Harmless num den := by
  have exactly : Format.double.nearest num den = units := by
    rw [← held.nearest_self (by decide)]
    exact nearest_congr .double positive Nat.one_pos (by rw [same, Nat.mul_one])
  constructor
  · apply double_nearest_lt positive _ below
    rw [← same]
    exact Nat.mul_le_mul_right den small
  · rw [exactly]
    exact nearest_congr .single Nat.one_pos positive (by rw [same, Nat.mul_one])

section
variable {first second sum : Nat} {negative negative' : Bool}

/-- Operands whose spacings are close have a sum that is a double. -/
private theorem holds_sum {large small exponent more : Nat} (short : large < 2 ^ 24) (short' : small < 2 ^ 24)
    (close : more ≤ 28) (combined : sum = large * 2 ^ (exponent + more) + small * 2 ^ exponent ∨
      sum + small * 2 ^ exponent = large * 2 ^ (exponent + more) ∨
      sum + large * 2 ^ (exponent + more) = small * 2 ^ exponent) : Holds .double sum := by
  have power : 2 ^ more ≤ 2 ^ 28 := Nat.pow_le_pow_right (by omega) close
  have product : large * 2 ^ more ≤ 2 ^ 24 * 2 ^ 28 := Nat.mul_le_mul short.le power
  have aligned : large * 2 ^ (exponent + more) = large * 2 ^ more * 2 ^ exponent := by
    rw [Nat.pow_add]
    ring
  rw [aligned] at combined
  obtain ⟨count, rfl⟩ : 2 ^ exponent ∣ sum := by
    rcases combined with rfl | total | total
    · exact Nat.dvd_add (Nat.dvd_mul_left ..) (Nat.dvd_mul_left ..)
    · rw [Nat.dvd_add_iff_left (Nat.dvd_mul_left ..), total]
      exact Nat.dvd_mul_left ..
    · rw [Nat.dvd_add_iff_left (Nat.dvd_mul_left ..), total]
      exact Nat.dvd_mul_left ..
  refine ⟨count, exponent, Nat.mul_comm _ _, ?_, Nat.zero_le _⟩
  have positive := Nat.two_pow_pos exponent
  have bound : count ≤ large * 2 ^ more + small := by
    apply Nat.le_of_mul_le_mul_left _ positive
    have least := Nat.zero_le (small * 2 ^ exponent)
    have least' := Nat.zero_le (large * 2 ^ more * 2 ^ exponent)
    rcases combined with total | total | total <;> linarith
  change count ≤ 2 ^ 53
  omega

/-- An operand far below the spacing of the other one is lost in both roundings. -/
private theorem nearest_absorbed {large small exponent more : Nat} (held : Holds .single (large * 2 ^ (exponent + more)))
    (spacing : Format.single.spacing (large * 2 ^ (exponent + more)) 1 = exponent + more)
    (short : large < 2 ^ 24) (short' : small < 2 ^ 24) (far : 28 < more)
    (combined : sum = large * 2 ^ (exponent + more) + small * 2 ^ exponent ∨
      sum + small * 2 ^ exponent = large * 2 ^ (exponent + more)) :
    Format.single.nearest (Format.double.nearest sum 1) 1 = Format.single.nearest sum 1 := by
  obtain ⟨eighth, rfl⟩ : ∃ eighth, more = eighth + 3 := ⟨more - 3, by omega⟩
  obtain ⟨above, below⟩ := holds_eighth (exponent + eighth) short
  have tiny : small * 2 ^ exponent ≤ 2 ^ (exponent + eighth) := by
    rw [Nat.pow_add, Nat.mul_comm (2 ^ exponent)]
    apply Nat.mul_le_mul_right
    exact Nat.le_trans short'.le (Nat.pow_le_pow_right (by omega) (by omega))
  rw [← Nat.add_assoc] at held spacing combined
  have step : 2 ^ (exponent + eighth + 3) = 8 * 2 ^ (exponent + eighth) := by
    rw [Nat.pow_add]
    ring
  have precise : 0 < Format.double.precision := by decide
  have top : Format.double.nearest sum 1 ≤ _ := above.nearest_le precise Nat.one_pos (by omega)
  have bottom : _ ≤ Format.double.nearest sum 1 := below.le_nearest precise Nat.one_pos (by omega)
  have found : ∀ units, units ≤ large * 2 ^ (exponent + eighth + 3) + 2 ^ (exponent + eighth) →
      large * 2 ^ (exponent + eighth + 3) ≤ units + 2 ^ (exponent + eighth) →
      Format.single.nearest units 1 = large * 2 ^ (exponent + eighth + 3) := by
    intro units high low
    apply held.nearest_of_near (by decide) <;> rw [spacing, step] <;> rw [step] at high low <;> omega
  rw [found sum (by omega) (by omega), found _ (by omega) (by omega)]

private theorem sum_harmless_of_le (single : (Number.finite negative first).IsSingle)
    (single' : (Number.finite negative' second).IsSingle)
    (order : Format.single.spacing second 1 ≤ Format.single.spacing first 1)
    (combined : sum = first + second ∨ sum + second = first ∨ sum + first = second) : Harmless sum 1 := by
  obtain ⟨held, small⟩ := (isSingle_finite_iff negative first).mp single
  obtain ⟨-, small'⟩ := (isSingle_finite_iff negative' second).mp single'
  have limit : sum ≤ 2 ^ (Format.single.limit + 1) := by
    rw [Nat.pow_succ]
    omega
  have below : Format.single.limit + 1 < Format.double.limit := by decide
  obtain ⟨large, coarse, spacing, rfl, short, -, -, long⟩ := single_count single
  obtain ⟨few, exponent, spacing', rfl, short', finest, -⟩ := single_count single'
  rw [spacing, spacing'] at order
  obtain ⟨more, rfl⟩ := Nat.exists_eq_add_of_le order
  by_cases close : more ≤ 28
  · have exactly : Holds .double sum := holds_sum short short' close combined
    exact harmless_of_holds exactly Nat.one_pos (Nat.mul_one sum) limit below
  · refine ⟨double_nearest_lt Nat.one_pos (by rwa [Nat.mul_one]) below, ?_⟩
    apply nearest_absorbed held spacing short short' (Nat.lt_of_not_le close)
    have larger : few * 2 ^ exponent < large * 2 ^ (exponent + more) :=
      calc
        few * 2 ^ exponent < 2 ^ 24 * 2 ^ exponent := Nat.mul_lt_mul_of_pos_right short' (Nat.two_pow_pos _)
        _ = 2 ^ (24 + exponent) := (Nat.pow_add ..).symm
        _ ≤ 2 ^ (23 + (exponent + more)) := Nat.pow_le_pow_right (by omega) (by omega)
        _ = 2 ^ 23 * 2 ^ (exponent + more) := Nat.pow_add ..
        _ ≤ large * 2 ^ (exponent + more) := Nat.mul_le_mul_right _ (long (by omega))
    omega

theorem sum_harmless (single : (Number.finite negative first).IsSingle)
    (single' : (Number.finite negative' second).IsSingle)
    (combined : sum = first + second ∨ sum + second = first ∨ sum + first = second) : Harmless sum 1 := by
  rcases Nat.le_total (Format.single.spacing second 1) (Format.single.spacing first 1) with order | order
  · exact sum_harmless_of_le single single' order combined
  · exact sum_harmless_of_le single' single order (by omega)

/-- The exponent is kept apart from its value, so that no step computes the power. -/
theorem exists_one_eq : ∃ unit, unit = 1074 ∧ Number.one = 2 ^ unit := by
  unfold Number.one
  generalize 1074 = unit
  exact ⟨unit, rfl, rfl⟩

theorem product_harmless (single : (Number.finite negative first).IsSingle)
    (single' : (Number.finite negative' second).IsSingle) : Harmless (first * second) Number.one := by
  obtain ⟨count, exponent, -, rfl, short, finest, coarse, -⟩ := single_count single
  obtain ⟨count', exponent', -, rfl, short', finest', coarse', -⟩ := single_count single'
  obtain ⟨unit, unit_eq, one_eq⟩ := exists_one_eq
  obtain ⟨places, total⟩ : ∃ places, exponent + exponent' = places + unit := ⟨exponent + exponent' - unit, by omega⟩
  have bits : count * count' ≤ 2 ^ 24 * 2 ^ 24 := Nat.mul_le_mul short.le short'.le
  have held : Holds .double (count * count' * 2 ^ places) := by
    refine ⟨_, _, rfl, ?_, Nat.zero_le _⟩
    change count * count' ≤ 2 ^ 53
    omega
  have value : count * count' * 2 ^ places * Number.one = count * 2 ^ exponent * (count' * 2 ^ exponent') := by
    have powers : 2 ^ places * Number.one = 2 ^ exponent * 2 ^ exponent' := by
      rw [one_eq, ← Nat.pow_add, ← Nat.pow_add, total]
    rw [Nat.mul_assoc, powers]
    ring
  have small : count * count' * 2 ^ places ≤ 2 ^ (48 + places) := by
    rw [Nat.pow_add]
    exact Nat.mul_le_mul_right _ bits
  apply harmless_of_holds held one_pos value small
  change 48 + places < 2098
  omega

theorem nearest_error_units (format : Format) (num : Nat) {den : Nat} (positive : 0 < den) :
    2 * num ≤ 2 * (format.nearest num den * den) + den * 2 ^ format.spacing num den ∧
      2 * (format.nearest num den * den) ≤ 2 * num + den * 2 ^ format.spacing num den := by
  obtain ⟨above, below⟩ := divEven_error num (Nat.mul_pos positive (Nat.two_pow_pos (format.spacing num den)))
  rw [nearest_eq]
  constructor <;> linarith

/-- Two multiples of a power of two that lie closer together than it are the same. -/
theorem eq_of_near {power first second width : Nat} (multiple : power ∣ first) (multiple' : power ∣ second)
    (near : 2 * first ≤ 2 * second + width) (near' : 2 * second ≤ 2 * first + width) (narrow : width < 2 * power) :
    first = second := by
  obtain ⟨count, rfl⟩ := multiple
  obtain ⟨count', rfl⟩ := multiple'
  have positive : 0 < power := by
    apply Nat.pos_of_ne_zero
    rintro rfl
    omega
  congr 1
  apply Nat.le_antisymm
  · apply Nat.le_of_lt_succ
    apply Nat.lt_of_mul_lt_mul_left (a := power)
    linarith
  · apply Nat.le_of_lt_succ
    apply Nat.lt_of_mul_lt_mul_left (a := power)
    linarith

private theorem quotient_small {count count' exponent exponent' : Nat} (short : count < 2 ^ 24) (some : 0 < count')
    (room : exponent' ≤ exponent) :
    count * 2 ^ exponent < 2 ^ (24 + exponent - exponent') * (count' * 2 ^ exponent') :=
  calc
    count * 2 ^ exponent < 2 ^ 24 * 2 ^ exponent := Nat.mul_lt_mul_of_pos_right short (Nat.two_pow_pos _)
    _ = 2 ^ (24 + exponent - exponent') * (1 * 2 ^ exponent') := by
      rw [Nat.one_mul, ← Nat.pow_add, ← Nat.pow_add, Nat.sub_add_cancel (by omega)]
    _ ≤ 2 ^ (24 + exponent - exponent') * (count' * 2 ^ exponent') :=
      Nat.mul_le_mul_left _ (Nat.mul_le_mul_right _ some)

/-- The middle of a cell of singles and a quotient have a common denominator that is small, so that
they are the same or further apart than the error of a double. -/
private theorem quotient_clear {count count' exponent exponent' middle : Nat} (short : count < 2 ^ 24)
    (short' : count' < 2 ^ 24) (some : 0 < count') (room : exponent' + 29 ≤ exponent)
    (ends : 2 * Format.double.nearest (count * 2 ^ exponent) (count' * 2 ^ exponent') =
      (2 * middle + 1) * 2 ^ Format.single.spacing (count * 2 ^ exponent) (count' * 2 ^ exponent')) :
    Format.double.nearest (count * 2 ^ exponent) (count' * 2 ^ exponent') * (count' * 2 ^ exponent') =
      count * 2 ^ exponent := by
  have positive : 0 < count' * 2 ^ exponent' := Nat.mul_pos some (Nat.two_pow_pos _)
  obtain ⟨above, below⟩ := nearest_error_units .double (count * 2 ^ exponent) positive
  have binade := lt_spacing .single (count * 2 ^ exponent) (count' * 2 ^ exponent')
  have coarsest : 925 ≤ Format.single.spacing (count * 2 ^ exponent) (count' * 2 ^ exponent') :=
    finest_le_spacing .single _ _
  have fine : Format.double.spacing (count * 2 ^ exponent) (count' * 2 ^ exponent') ≤ exponent - exponent' - 29 := by
    have small := @quotient_small count count' exponent exponent' short some (by omega)
    have bits : 24 + exponent - exponent' = exponent - exponent' - 29 + 53 := by omega
    rw [← Nat.div_lt_iff_lt_mul positive, bits] at small
    exact spacing_le (by decide) (Nat.zero_le _) small
  have fine' : Format.double.spacing (count * 2 ^ exponent) (count' * 2 ^ exponent') ≤
      Format.single.spacing (count * 2 ^ exponent) (count' * 2 ^ exponent') - 29 := by
    have bits : Format.single.spacing (count * 2 ^ exponent) (count' * 2 ^ exponent') + 24 =
        Format.single.spacing (count * 2 ^ exponent) (count' * 2 ^ exponent') - 29 + 53 := by omega
    rw [show Format.single.precision = 24 from rfl, bits] at binade
    exact spacing_le (by decide) (Nat.zero_le _) binade
  generalize Format.single.spacing (count * 2 ^ exponent) (count' * 2 ^ exponent') = coarse at *
  generalize Format.double.spacing (count * 2 ^ exponent) (count' * 2 ^ exponent') = step at *
  generalize Format.double.nearest (count * 2 ^ exponent) (count' * 2 ^ exponent') = rounded at *
  have half : rounded = (2 * middle + 1) * 2 ^ (coarse - 1) := by
    rw [← mul_pow_sub_one (show coarse ≠ 0 by omega)] at ends
    linarith
  have product : rounded * (count' * 2 ^ exponent') = (2 * middle + 1) * count' * 2 ^ (coarse - 1 + exponent') := by
    rw [half, Nat.pow_add]
    ring
  have multiple : 2 ^ min exponent (coarse - 1 + exponent') ∣ count * 2 ^ exponent :=
    Nat.dvd_mul_left_of_dvd (Nat.pow_dvd_pow 2 (min_le_left _ _)) count
  have multiple' : 2 ^ min exponent (coarse - 1 + exponent') ∣ rounded * (count' * 2 ^ exponent') := by
    rw [product]
    exact Nat.dvd_mul_left_of_dvd (Nat.pow_dvd_pow 2 (min_le_right _ _)) _
  have narrow : count' * 2 ^ exponent' * 2 ^ step < 2 * 2 ^ min exponent (coarse - 1 + exponent') :=
    calc
      count' * 2 ^ exponent' * 2 ^ step < 2 ^ 24 * 2 ^ exponent' * 2 ^ step :=
        Nat.mul_lt_mul_of_pos_right (Nat.mul_lt_mul_of_pos_right short' (Nat.two_pow_pos _)) (Nat.two_pow_pos _)
      _ = 2 ^ (24 + exponent' + step) := by rw [← Nat.pow_add, ← Nat.pow_add]
      _ ≤ 2 ^ (min exponent (coarse - 1 + exponent') + 1) := Nat.pow_le_pow_right (by omega) (by omega)
      _ = 2 * 2 ^ min exponent (coarse - 1 + exponent') := Nat.pow_succ'
  exact (eq_of_near multiple multiple' above below narrow).symm

theorem quotient_harmless (single : (Number.finite negative first).IsSingle)
    (single' : (Number.finite negative' second).IsSingle) (some : 0 < second) :
    Harmless (first * Number.one) second := by
  obtain ⟨count, exponent, -, rfl, short, finest, coarse, -⟩ := single_count single
  obtain ⟨count', exponent', -, rfl, short', finest', coarse', -⟩ := single_count single'
  obtain ⟨unit, unit_eq, one_eq⟩ := exists_one_eq
  have some' : 0 < count' := Nat.pos_of_mul_pos_right some
  rw [one_eq, Nat.mul_assoc, ← Nat.pow_add]
  constructor
  · apply double_nearest_lt some (quotient_small short some' (by omega)).le
    change 24 + (exponent + unit) - exponent' < 2098
    omega
  · refine @nearest_nearest .double .single _ _ (by decide) (by decide) (by decide) some ?_
    intro middle ends
    exact quotient_clear short short' some' (by omega) ends

end

end Lox.Proofs
