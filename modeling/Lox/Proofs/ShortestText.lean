import Lox.Proofs.Reading
import Mathlib.Algebra.Order.Group.Pointwise.Interval

/-! How short the text of a single is. If a decimal of some count of digits is read as the single, then
the nearest decimal of that count is: next to a single that is no power of two because reading is
even-handed there, and at the powers of two one by one. Three of those are exceptions, and are written
with nine digits where eight would do. -/

namespace Lox.Proofs
open Decimal Number

/-- The count of significant digits, without the zeros at the end. -/
def significant (d : Decimal) : Nat := digitCount d.trim.digits

section
variable {d other : Decimal}

theorem worth_eq_zero_iff : worth d = 0 ↔ d.digits = 0 := by
  have power : (10 : ℚ) ^ d.exponent ≠ 0 := by positivity
  rw [worth, mul_eq_zero_iff_right power, Nat.cast_eq_zero]

theorem Trimmed.eq_zero (trimmed : Trimmed d) (zero : d.digits = 0) : d = ⟨0, 0⟩ := by
  rcases trimmed with same | last
  · exact same
  · rw [zero] at last
    exact absurd rfl last

theorem Trimmed.le_exponent (trimmed : Trimmed d) (some : d.digits ≠ 0) (same : worth d = worth other) :
    other.exponent ≤ d.exponent := by
  by_contra more
  obtain ⟨gap, exponent⟩ : ∃ gap : Nat, other.exponent = (gap + 1 : Nat) + d.exponent :=
    ⟨(other.exponent - d.exponent - 1).toNat, by omega⟩
  have tens : d.digits = other.digits * 10 ^ (gap + 1) := by
    have power : (10 : ℚ) ^ d.exponent ≠ 0 := by positivity
    rw [worth, worth, exponent, zpow_add₀ (by norm_num), zpow_natCast, ← mul_assoc, mul_left_inj' power] at same
    exact_mod_cast same
  rcases trimmed with rfl | last
  · exact some rfl
  · apply last
    rw [tens, Nat.pow_succ, ← Nat.mul_assoc, Nat.mul_mod_left]

theorem Trimmed.eq_of_worth (trimmed : Trimmed d) (trimmed' : Trimmed other) (same : worth d = worth other) :
    d = other := by
  by_cases zero : d.digits = 0
  · have zero' : other.digits = 0 := by rwa [← worth_eq_zero_iff, ← same, worth_eq_zero_iff]
    rw [trimmed.eq_zero zero, trimmed'.eq_zero zero']
  · have some : other.digits ≠ 0 := by rwa [Ne, ← worth_eq_zero_iff, ← same, worth_eq_zero_iff]
    have exponent : d.exponent = other.exponent :=
      le_antisymm (trimmed'.le_exponent some same.symm) (trimmed.le_exponent zero same)
    have power : (10 : ℚ) ^ other.exponent ≠ 0 := by positivity
    rw [worth, worth, exponent, mul_left_inj' power, Nat.cast_inj] at same
    exact congrArg₂ Decimal.mk same exponent

theorem trim_congr (same : worth d = worth other) : d.trim = other.trim := by
  apply (trimmed_trim d).eq_of_worth (trimmed_trim other)
  rw [worth_trim, worth_trim, same]

theorem significant_congr (same : worth d = worth other) : significant d = significant other := by
  rw [significant, significant, trim_congr same]

end

/-- The single that a decimal is read as, the limit of singles apart, in units. -/
def readUnits (d : Decimal) : Nat := reading (d.fraction.1 * one) d.fraction.2

section
variable {d other : Decimal} {units : Nat}

theorem worth_units (d : Decimal) : ((d.fraction.1 * one : Nat) / d.fraction.2 : ℚ) = worth d * one := by
  rw [Nat.cast_mul, ← fraction_worth, div_mul_eq_mul_div]

theorem toSingle_ofDecimal_iff {sign negative : Bool} (small : units < 2 ^ Format.single.limit) :
    (ofDecimal sign d).toSingle = .finite negative units ↔ sign = negative ∧ readUnits d = units := by
  constructor
  · intro reads
    rcases round_cases .double sign (d.fraction.1 * one) d.fraction.2 with large | ⟨double, same⟩
    · rw [ofDecimal, large] at reads
      cases reads
    · rw [ofDecimal, same, toSingle_finite] at reads
      obtain ⟨sign, single, -⟩ := round_eq_finite reads
      refine ⟨sign, ?_⟩
      rw [readUnits, reading, (round_eq_finite same).2.1, single]
  · rintro ⟨rfl, rfl⟩
    -- What overflows a double is read as the limit of singles or more.
    have double : Format.double.nearest (d.fraction.1 * one) d.fraction.2 < 2 ^ Format.double.limit := by
      have held : Holds .single (2 ^ Format.single.limit) :=
        ⟨1, Format.single.limit, (Nat.one_mul _).symm, Nat.one_le_two_pow, by decide⟩
      apply (lt_of_reading_lt held (fraction_pos d) small).2.trans_le
      exact Nat.pow_le_pow_right Nat.two_pos (by decide)
    rw [ofDecimal, round_of_lt sign double, toSingle_finite]
    exact round_of_lt sign small

/-- Between a decimal that is read as a single and that single, all is read as the single. -/
theorem readUnits_of_between (held : Holds .single units) (reads : readUnits d = units)
    (between : worth other ∈ Set.uIcc (worth d) (units / one)) : readUnits other = units := by
  have scaled : worth other * one ∈ Set.uIcc (worth d * one) (units / one * one) := by
    rw [← Set.image_mul_const_uIcc]
    exact Set.mem_image_of_mem _ between
  apply reading_between (fraction_pos other) (fraction_pos d) Nat.one_pos reads (reading_self held)
  rwa [worth_units, worth_units, Nat.cast_one, div_one, ← div_mul_cancel₀ (units : ℚ) one_cast_pos.ne']

/-- The exponent of the last of some digits of a magnitude. -/
def lastPlace (count units : Nat) : Int := leading units one + 1 - count

/-- The multiple of a power of ten that is nearest to a magnitude. -/
def nearestMultiple (exponent : Int) (units : Nat) : Decimal :=
  ⟨divEven (units * Nat.pow 10 (-exponent).toNat) (one * Nat.pow 10 exponent.toNat), exponent⟩

theorem nearest_eq_multiple (count : Nat) (some : 0 < units) :
    Decimal.nearest count units one = nearestMultiple (lastPlace count units) units := if_neg some.ne'

theorem nearestMultiple_closest (exponent : Int) (units count : Nat) :
    |worth (nearestMultiple exponent units) - units / one| ≤ |worth ⟨count, exponent⟩ - units / one| := by
  have positive : 0 < one * Nat.pow 10 exponent.toNat := Nat.mul_pos one_pos (Nat.pow_pos (by omega))
  rw [@scaled_fraction units one exponent]
  simp only [nearestMultiple, worth, ← sub_mul, abs_mul]
  apply mul_le_mul_of_nonneg_right _ (abs_nonneg _)
  by_cases same : count = divEven (units * Nat.pow 10 (-exponent).toNat) (one * Nat.pow 10 exponent.toNat)
  · rw [same]
  · exact (divEven_half _ positive).trans (divEven_closest positive same)

/-- Between a decimal of few digits and a magnitude lies a decimal of that many digits with the place of
the magnitude. -/
theorem exists_multiple_between {count : Nat} (some : 0 < units) (positive : 0 < count) (few : d.digits < 10 ^ count) :
    ∃ digits, worth ⟨digits, lastPlace count units⟩ ∈ Set.uIcc (worth d) (units / one) := by
  by_cases coarse : lastPlace count units ≤ d.exponent
  · obtain ⟨gap, exponent⟩ : ∃ gap : Nat, d.exponent = gap + lastPlace count units :=
      ⟨(d.exponent - lastPlace count units).toNat, by omega⟩
    have same : worth ⟨d.digits * 10 ^ gap, lastPlace count units⟩ = worth d := by
      simp only [worth, exponent, zpow_add₀ (show (10 : ℚ) ≠ 0 by norm_num), zpow_natCast]
      push_cast
      ring
    refine ⟨d.digits * 10 ^ gap, ?_⟩
    rw [same]
    exact Set.left_mem_uIcc
  · -- A finer decimal of so few digits lies below the leading digit of the magnitude.
    obtain ⟨opens, -⟩ := leading_bounds some one_pos
    have place : leading units one = (count - 1 : Nat) + lastPlace count units := by
      unfold lastPlace
      omega
    have leads : worth ⟨10 ^ (count - 1), lastPlace count units⟩ = 10 ^ leading units one := by
      rw [place, zpow_add₀ (by norm_num), zpow_natCast, worth, Nat.cast_pow, Nat.cast_ofNat]
    refine ⟨10 ^ (count - 1), Set.mem_uIcc_of_le ?_ ?_⟩
    · rw [leads, worth]
      calc
        (d.digits : ℚ) * 10 ^ d.exponent ≤ 10 ^ count * 10 ^ d.exponent := by
          gcongr
          exact_mod_cast few.le
        _ = 10 ^ (count + d.exponent) := by rw [zpow_add₀ (by norm_num), zpow_natCast]
        _ ≤ 10 ^ leading units one := by
          apply zpow_le_zpow_right₀ (by norm_num)
          omega
    · exact leads.trans_le opens

theorem readUnits_multiple (digits : Nat) (exponent : Int) : readUnits ⟨digits, exponent⟩ =
    reading (digits * (one * Nat.pow 10 exponent.toNat)) (Nat.pow 10 (-exponent).toNat) := by
  rw [readUnits, fraction, Nat.mul_assoc, Nat.mul_comm one]

end

/-- Among the multiples of a power of ten, the one nearest to the power of two is read as that power, or
none is. -/
def Settled (power : Nat) (exponent : Int) : Prop :=
  let den := Nat.pow 10 (-exponent).toNat
  let step := one * Nat.pow 10 exponent.toNat
  WellInside power (divEven (2 ^ power * den) step * step) den ∨
    2 ^ power * den / step * step ≤ (2 ^ power - halfSpacing power - margin power) * den ∧
      (2 ^ power + halfSpacing (power + 1) + margin power) * den ≤ (2 ^ power * den / step + 1) * step

instance (power : Nat) (exponent : Int) : Decidable (Settled power exponent) := inferInstanceAs (Decidable (_ ∨ _))

theorem Settled.reads {power digits : Nat} {exponent : Int} (settled : Settled power exponent) (fine : 925 ≤ power)
    (reads : readUnits ⟨digits, exponent⟩ = 2 ^ power) : readUnits (nearestMultiple exponent (2 ^ power)) = 2 ^ power := by
  have positive : 0 < Nat.pow 10 (-exponent).toNat := Nat.pow_pos (by omega)
  rw [readUnits_multiple] at reads
  rw [nearestMultiple, readUnits_multiple]
  rcases settled with inside | ⟨below, above⟩
  · exact inside.reading_eq fine positive
  · have outside : WellOutside power (digits * (one * Nat.pow 10 exponent.toNat)) (Nat.pow 10 (-exponent).toNat) := by
      rcases Nat.lt_or_ge (2 ^ power * Nat.pow 10 (-exponent).toNat / (one * Nat.pow 10 exponent.toNat)) digits
        with more | less
      · exact .inr (above.trans (Nat.mul_le_mul_right _ more))
      · exact .inl ((Nat.mul_le_mul_right _ less).trans below)
    exact absurd reads (outside.reading_ne fine positive)

/-- The powers of two that are written with nine digits, each with eight digits that are read as it. -/
def overlong : List (Nat × Decimal) := [(978, ⟨12621775, -36⟩), (1161, ⟨15474251, 19⟩), (1164, ⟨12379401, 20⟩)]

/-- All the powers of two among the singles, with every count of digits short of nine. -/
theorem powers_settled : ∀ offset < 277, ∀ fewer < 8,
    Settled (925 + offset) (lastPlace (fewer + 1) (2 ^ (925 + offset))) ∨
      fewer = 7 ∧ ∃ entry ∈ overlong, entry.1 = 925 + offset := by
  decide +kernel

theorem overlong_reads : ∀ entry ∈ overlong, readUnits entry.2 = 2 ^ entry.1 ∧ significant entry.2 = 8 ∧
    (singleDecimal? (2 ^ entry.1)).map significant = some 9 := by
  decide +kernel

section
variable {units fewer : Nat} {d found : Decimal}

theorem Holds.finest_le_log2 (held : Holds .single units) (some : 0 < units) : 925 ≤ units.log2 := by
  obtain ⟨significand, exponent, rfl, -, finest⟩ := held
  rw [Nat.le_log2 some.ne']
  calc
    2 ^ 925 ≤ 2 ^ exponent := Nat.pow_le_pow_right Nat.two_pos finest
    _ ≤ significand * 2 ^ exponent := Nat.le_mul_of_pos_left _ (Nat.pos_of_mul_pos_right some)

/-- If a decimal of a count of digits is read as the single, the nearest one is. -/
theorem readUnits_nearest {digits : Nat} (single : (Number.finite false units).IsSingle) (some : 0 < units)
    (few : fewer < 8) (usual : fewer = 7 → ∀ entry ∈ overlong, units ≠ 2 ^ entry.1)
    (reads : readUnits ⟨digits, lastPlace (fewer + 1) units⟩ = units) :
    readUnits (Decimal.nearest (fewer + 1) units one) = units := by
  obtain ⟨held, small⟩ := (isSingle_finite_iff false units).mp single
  rw [nearest_eq_multiple (fewer + 1) some]
  rcases power_or_inner held some with power | inner
  · obtain ⟨offset, exponent⟩ : ∃ offset, units.log2 = 925 + offset :=
      ⟨units.log2 - 925, (Nat.add_sub_cancel' (held.finest_le_log2 some)).symm⟩
    have inside : offset < 277 := by
      have bound : units.log2 < Format.single.limit := (Nat.log2_lt some.ne').mpr small
      change units.log2 < 1202 at bound
      omega
    rw [exponent] at power
    subst power
    rcases powers_settled offset inside fewer few with settled | ⟨last, entry, member, same⟩
    · exact settled.reads (Nat.le_add_right 925 offset) reads
    · exact absurd (congrArg _ same.symm) (usual last entry member)
  · apply inner.reading_of_closer (fraction_pos _) (fraction_pos _) reads
    have scaled : ∀ d, |worth d * one - units| = |worth d - units / one| * one := by
      intro d
      rw [← abs_of_pos one_cast_pos, ← abs_mul, abs_of_pos one_cast_pos, sub_mul, div_mul_cancel₀ _ one_cast_pos.ne']
    rw [worth_units, worth_units, scaled, scaled]
    exact mul_le_mul_of_nonneg_right (nearestMultiple_closest _ units digits) one_cast_pos.le

/-- The text is made of the first count of digits whose nearest decimal is read as the single. -/
theorem significant_singleDecimal (text : singleDecimal? units = some found) (small : units < 2 ^ Format.single.limit)
    (few : fewer < 9) (reads : readUnits (Decimal.nearest (fewer + 1) units one) = units) :
    significant found ≤ fewer + 1 := by
  obtain ⟨before, first, after, counts, passes, fail⟩ := List.findSome?_eq_some_iff.mp text
  have earliest : first ≤ fewer := by
    have sorted : (before ++ first :: after).Pairwise (· < ·) := counts ▸ List.pairwise_lt_range
    have member : fewer ∈ before ++ first :: after := counts ▸ List.mem_range.mpr few
    rcases List.mem_append.mp member with early | late
    · have fails := fail fewer early
      rw [if_pos ((toSingle_ofDecimal_iff small).mpr ⟨rfl, reads⟩)] at fails
      cases fails
    · rcases List.mem_cons.mp late with rfl | later
      · exact le_rfl
      · exact (List.rel_of_pairwise_cons (List.pairwise_append.mp sorted).2.1 later).le
  dsimp only at passes
  split at passes
  next =>
    cases passes
    rw [significant_congr (worth_trim _)]
    exact (digitCount_nearest_trim first units one_pos).trans (Nat.succ_le_succ earliest)
  next => cases passes

theorem significant_singleDecimal_le (text : singleDecimal? units = some found) : significant found ≤ 9 := by
  obtain ⟨count, few, rfl, -⟩ := singleDecimal?_eq_some text
  rw [significant_congr (worth_trim _)]
  exact (digitCount_nearest_trim count units one_pos).trans few

theorem digits_pos_of_reads (some : 0 < units) (reads : readUnits d = units) : 0 < d.trim.digits := by
  apply Nat.pos_of_ne_zero
  intro zero
  rw [← worth_eq_zero_iff, worth_trim] at zero
  have held : Holds .single 0 := ⟨0, 925, (Nat.zero_mul _).symm, Nat.zero_le _, le_rfl⟩
  have nothing : readUnits d ≤ reading 0 1 := by
    apply reading_mono (fraction_pos d) Nat.one_pos
    rw [worth_units, zero, zero_mul, Nat.cast_zero, zero_div]
  rw [reading_self held] at nothing
  omega

theorem significant_le (single : (Number.finite false units).IsSingle) (some : 0 < units)
    (text : singleDecimal? units = .some found) (reads : readUnits d = units) :
    significant found ≤ significant d ∨ significant d = 8 ∧ ∃ entry ∈ overlong, units = 2 ^ entry.1 := by
  obtain ⟨held, small⟩ := (isSingle_finite_iff false units).mp single
  have digits := digits_pos_of_reads some reads
  obtain ⟨fewer, count⟩ := Nat.exists_eq_add_one.mpr (digitCount_pos digits)
  have bound : d.trim.digits < 10 ^ (fewer + 1) := by
    rw [← count]
    exact (digitCount_bounds digits).2
  rw [significant.eq_def d, count]
  by_cases few : fewer < 8
  · obtain ⟨point, between⟩ := exists_multiple_between some (Nat.succ_pos fewer) bound
    rw [worth_trim] at between
    have reads' := readUnits_of_between held reads between
    by_cases usual : fewer = 7 → ∀ entry ∈ overlong, units ≠ 2 ^ entry.1
    · have nearest := readUnits_nearest single some few usual reads'
      exact .inl (significant_singleDecimal text small (Nat.lt_succ_of_lt few) nearest)
    · push Not at usual
      obtain ⟨rfl, exception⟩ := usual
      exact .inr ⟨rfl, exception⟩
  · have atMost := significant_singleDecimal_le text
    exact .inl (by omega)

theorem abs_amount_power_iff {negative : Bool} (exponent : Nat) :
    |amount negative units| = 2 ^ (exponent - 1074 : ℤ) ↔ units = 2 ^ exponent := by
  rw [abs_amount, power_units, Nat.abs_cast, div_left_inj' one_cast_pos.ne']
  exact_mod_cast Iff.rfl

theorem overlong_iff {negative : Bool} : |amount negative units| ∈ ({2 ^ (-96 : ℤ), 2 ^ (87 : ℤ), 2 ^ (90 : ℤ)} : Set ℚ) ↔
    ∃ entry ∈ overlong, units = 2 ^ entry.1 := by
  rw [Set.mem_insert_iff, Set.mem_insert_iff, Set.mem_singleton_iff, show (-96 : ℤ) = (978 : Nat) - 1074 by rfl,
    show (87 : ℤ) = (1161 : Nat) - 1074 by rfl, show (90 : ℤ) = (1164 : Nat) - 1074 by rfl, abs_amount_power_iff,
    abs_amount_power_iff, abs_amount_power_iff]
  simp only [overlong, List.mem_cons, List.not_mem_nil, or_false, exists_eq_or_imp, exists_eq_left]

end

/-- No decimal that is read as the number has fewer significant digits. -/
def Shortest (number : Number) (d : Decimal) : Prop :=
  ∀ sign other, (ofDecimal sign other).toSingle = number → significant d ≤ significant other

/-- The text of a single other than zero is a numeral that reads back as it. It is the shortest such, unless
the single is one of three powers of two, and there a shorter one saves one digit. -/
theorem text_shortest_iff (negative : Bool) (units : Nat) (single : Representable .single (amount negative units))
    (nonzero : units ≠ 0) :
    ∃ numeral, (Number.finite negative units).text.toList = signText negative ++ numeral ∧ Numeral numeral ∧
      (ofDecimal negative (ofNumeral numeral)).toSingle = .finite negative units ∧
      (Shortest (.finite negative units) (ofNumeral numeral) ↔
        |amount negative units| ∉ ({2 ^ (-96 : ℤ), 2 ^ (87 : ℤ), 2 ^ (90 : ℤ)} : Set ℚ)) ∧
      ∀ sign d, (ofDecimal sign d).toSingle = .finite negative units →
        significant (ofNumeral numeral) ≤ significant d + 1 := by
  have positive : 0 < units := Nat.pos_of_ne_zero nonzero
  have single' : (Number.finite false units).IsSingle := isSingle_magnitude (representable_single_iff.mp single)
  obtain ⟨-, small⟩ := (isSingle_finite_iff false units).mp single'
  obtain ⟨found, text, reads⟩ := exists_singleDecimal single'
  obtain ⟨numeral, same⟩ := positional_reads found
  have bound := significant_singleDecimal_le text
  refine ⟨found.positional, ?_, numeral, ?_, ?_, ?_⟩
  · rw [text_finite, magnitudeText_some text]
  · rw [ofDecimal_congr negative same]
    exact toSingle_ofDecimal_signed reads negative
  · rw [overlong_iff, Shortest, significant_congr same]
    constructor
    · rintro shortest ⟨entry, member, rfl⟩
      obtain ⟨short, eight, nine⟩ := overlong_reads entry member
      rw [text, Option.map_some, Option.some_inj] at nine
      have shorter := shortest negative entry.2 ((toSingle_ofDecimal_iff small).mpr ⟨rfl, short⟩)
      omega
    · intro usual sign d reads
      rcases significant_le single' positive text ((toSingle_ofDecimal_iff small).mp reads).2 with less | ⟨-, exception⟩
      · exact less
      · exact absurd exception usual
  · intro sign d reads
    rw [significant_congr same]
    rcases significant_le single' positive text ((toSingle_ofDecimal_iff small).mp reads).2 with less | ⟨eight, -⟩ <;>
      omega

/-- Of two powers of two next to each other, the smaller is written in the shortest way and the larger
is not. -/
theorem text_neighbouringPowers :
    (Representable .single (amount true (2 ^ 1163 : Nat)) ∧ ∃ numeral,
      (Number.finite true (2 ^ 1163)).text.toList = signText true ++ numeral ∧
      Shortest (.finite true (2 ^ 1163)) (ofNumeral numeral)) ∧
    (Representable .single (amount false (2 ^ 1164 : Nat)) ∧ ∃ numeral,
      (Number.finite false (2 ^ 1164)).text.toList = signText false ++ numeral ∧
      ¬ Shortest (.finite false (2 ^ 1164)) (ofNumeral numeral)) := by
  have single : Representable .single (amount true (2 ^ 1163 : Nat)) := by
    apply representable_power <;> decide
  have single' : Representable .single (amount false (2 ^ 1164 : Nat)) := by
    apply representable_power <;> decide
  have nonzero : ∀ exponent, 2 ^ exponent ≠ 0 := fun exponent => (Nat.two_pow_pos exponent).ne'
  have usual : ∀ exponent, (∀ entry ∈ overlong, exponent ≠ entry.1) → ¬ ∃ entry ∈ overlong, 2 ^ exponent = 2 ^ entry.1 := by
    rintro exponent different ⟨entry, member, same⟩
    exact different entry member (Nat.pow_right_injective le_rfl same)
  refine ⟨⟨single, ?_⟩, single', ?_⟩
  · obtain ⟨numeral, text, -, -, shortest, -⟩ := text_shortest_iff true (2 ^ 1163) single (nonzero 1163)
    refine ⟨numeral, text, shortest.mpr ?_⟩
    rw [overlong_iff]
    exact usual 1163 (by decide)
  · obtain ⟨numeral, text, -, -, shortest, -⟩ := text_shortest_iff false (2 ^ 1164) single' (nonzero 1164)
    refine ⟨numeral, text, mt shortest.mp ?_⟩
    rw [overlong_iff, not_not]
    obtain ⟨entry, member, same⟩ : ∃ entry ∈ overlong, entry.1 = 1164 := by decide
    exact ⟨entry, member, by rw [same]⟩

end Lox.Proofs
