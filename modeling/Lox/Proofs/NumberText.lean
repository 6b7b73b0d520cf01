import Lox.Number.Text
import Lox.Proofs.Decimals
import Lox.Proofs.MaximalMunch

/-! The text of a single reads back as that single. Nine significant digits always suffice: their
error is below an eighth of the spacing of singles, and a double is not moved across the bounds of
that eighth by being rounded. -/

namespace Lox.Proofs
open Decimal Number

/-- Both ends of an eighth of a single's spacing around it are doubles. -/
theorem holds_eighth {count : Nat} (exponent : Nat) (small : count < 2 ^ 24) :
    Holds .double (count * 2 ^ (exponent + 3) + 2 ^ exponent) ∧
      Holds .double (count * 2 ^ (exponent + 3) - 2 ^ exponent) := by
  constructor
  · refine ⟨8 * count + 1, exponent, by ring, ?_, Nat.zero_le exponent⟩
    change 8 * count + 1 ≤ 2 ^ 53
    omega
  · refine ⟨8 * count - 1, exponent, ?_, ?_, Nat.zero_le exponent⟩
    · rw [Nat.sub_mul]
      congr 1 <;> ring
    · change 8 * count - 1 ≤ 2 ^ 53
      omega

/-- Reading a decimal gives a double that lies between any two doubles around the decimal. -/
theorem ofDecimal_between {d : Decimal} {units width : Nat} (above : Holds .double (units + width))
    (below : Holds .double (units - width)) (small : units + width < 2 ^ Format.double.limit)
    (close : |worth d * one - units| ≤ width) :
    ∃ read, ofDecimal false d = .finite false read ∧ read ≤ units + width ∧ units ≤ read + width := by
  have precise : 0 < Format.double.precision := by decide
  have positive := fraction_pos d
  have den_pos : (0 : ℚ) < d.fraction.2 := by exact_mod_cast positive
  rw [abs_le, ← fraction_worth, div_mul_eq_mul_div] at close
  have upper : d.fraction.1 * one ≤ (units + width) * d.fraction.2 := by
    have bound : (d.fraction.1 : ℚ) * one / d.fraction.2 ≤ units + width := by linarith
    rw [div_le_iff₀ den_pos] at bound
    exact_mod_cast bound
  have lower : units * d.fraction.2 ≤ d.fraction.1 * one + width * d.fraction.2 := by
    have bound : (units : ℚ) - width ≤ d.fraction.1 * one / d.fraction.2 := by linarith
    rw [le_div_iff₀ den_pos, sub_mul, sub_le_iff_le_add] at bound
    exact_mod_cast bound
  have top := above.nearest_le precise positive upper
  have bottom : units - width ≤ Format.double.nearest (d.fraction.1 * one) d.fraction.2 := by
    apply below.le_nearest precise positive
    rw [Nat.sub_mul]
    omega
  refine ⟨_, round_of_lt false (by omega), top, by omega⟩

theorem one_pos : 0 < one := by
  have positive : ∀ exponent, 0 < Nat.pow 2 exponent := Nat.two_pow_pos
  unfold one
  apply positive

/-- Nine digits recover every single, through the nearest double. -/
theorem nine_digits {units : Nat} (single : (Number.finite false units).IsSingle) :
    (ofDecimal false (Decimal.nearest 9 units one)).toSingle = .finite false units := by
  obtain ⟨held, small⟩ := (isSingle_finite_iff false units).mp single
  obtain ⟨count, step, spacing, multiple, digits, finest, coarse, -⟩ := single_count single
  obtain ⟨exponent, rfl⟩ : ∃ exponent, step = exponent + 3 := ⟨step - 3, by omega⟩
  have low : exponent < Format.single.limit := show exponent < 1202 by omega
  obtain ⟨above, below⟩ := holds_eighth exponent digits
  rw [← multiple] at above below
  have room : units + 2 ^ exponent < 2 ^ Format.double.limit :=
    calc
      units + 2 ^ exponent < 2 ^ Format.single.limit + 2 ^ Format.single.limit :=
        Nat.add_lt_add_of_lt_of_le small (Nat.pow_le_pow_right (by omega) low.le)
      _ = 2 ^ (Format.single.limit + 1) := by ring
      _ ≤ 2 ^ Format.double.limit := Nat.pow_le_pow_right (by omega) (by decide)
  have close : |worth (Decimal.nearest 9 units one) * one - units| ≤ (2 ^ exponent : Nat) := by
    have error := nearest_error_scaled 8 units one_pos
    have bound : (units : ℚ) ≤ 2 ^ 24 * 2 ^ (exponent + 3) := by
      rw [multiple]
      exact_mod_cast Nat.mul_le_mul_right _ digits.le
    rw [pow_add] at bound
    push_cast
    linarith
  obtain ⟨read, reads, top, bottom⟩ := ofDecimal_between above below room close
  have found : Format.single.nearest read 1 = units := by
    apply held.nearest_of_near (by decide) <;> rw [spacing, Nat.pow_add] <;> omega
  rw [reads, toSingle_finite, round_of_lt false (by rw [found]; exact small), found]

/-- What the first nine counts of digits find is a decimal of that many digits that reads back. -/
theorem singleDecimal?_eq_some {units : Nat} {d : Decimal} (found : singleDecimal? units = some d) :
    ∃ fewer < 9, d = (Decimal.nearest (fewer + 1) units one).trim ∧
      (ofDecimal false d).toSingle = .finite false units := by
  obtain ⟨fewer, member, passes⟩ := List.exists_of_findSome?_eq_some found
  dsimp only at passes
  split at passes
  next reads =>
    cases passes
    refine ⟨fewer, List.mem_range.mp member, rfl, ?_⟩
    exact (congrArg toSingle (ofDecimal_congr false (worth_trim _))).trans reads
  next => cases passes

theorem exists_singleDecimal {units : Nat} (single : (Number.finite false units).IsSingle) :
    ∃ d, singleDecimal? units = some d ∧ (ofDecimal false d).toSingle = .finite false units := by
  have found : (singleDecimal? units).isSome := by
    unfold singleDecimal?
    rw [List.findSome?_isSome_iff]
    exact ⟨8, by decide, by simp [nine_digits single]⟩
  obtain ⟨d, same⟩ := Option.isSome_iff_exists.mp found
  obtain ⟨_, _, _, reads⟩ := singleDecimal?_eq_some same
  exact ⟨d, same, reads⟩

theorem ofDigits_eq (digits : List Char) : ofDigits digits = Nat.ofDigitChars 10 digits 0 := by
  simp only [ofDigits, Nat.ofDigitChars_eq_foldl, Nat.mul_comm]

theorem ofDigits_digitText (n : Nat) : ofDigits (digitText n) = n := by
  rw [ofDigits_eq]
  exact Nat.ofDigitChars_ten_toDigits

theorem digits_digitText (n : Nat) : Digits (digitText n) :=
  ⟨Nat.toDigits_ne_nil, fun _ member =>
    isDigit_iff.mp (Nat.isDigit_of_mem_toDigits (by decide) (by decide) member)⟩

theorem Digits.no_point {text : List Char} (digits : Digits text) : '.' ∉ text :=
  fun member => absurd (digits.2 '.' member) (by decide)

theorem ofNumeral_digits {text : List Char} (digits : Digits text) : ofNumeral text = ⟨ofDigits text, 0⟩ := by
  have all := @span_until '.' text [] digits.no_point (by simp)
  rw [List.append_nil] at all
  simp only [ofNumeral, all.1, all.2]
  simp

theorem ofNumeral_pointed {whole places : List Char} (digits : Digits whole) :
    ofNumeral (whole ++ '.' :: places) = ⟨ofDigits (whole ++ places), -(places.length : Int)⟩ := by
  have halves := @span_until '.' whole ('.' :: places) digits.no_point (by simp)
  simp only [ofNumeral, halves.1, halves.2]
  simp

/-- Writing a point pads the digits with zeros in front, which changes no value. -/
theorem pointed_eq {digits : List Char} {places : Nat} (all : Digits digits) (some : 0 < places) :
    ∃ whole after, pointed digits places = whole ++ '.' :: after ∧ Digits whole ∧ Digits after ∧
      after.length = places ∧ ofDigits (whole ++ after) = ofDigits digits := by
  have long : places < (List.replicate (places + 1 - digits.length) '0' ++ digits).length := by
    rw [List.length_append, List.length_replicate]
    omega
  have member : ∀ c ∈ List.replicate (places + 1 - digits.length) '0' ++ digits, Digit c := by
    intro c inside
    rcases List.mem_append.mp inside with zero | digit
    · rw [List.eq_of_mem_replicate zero]
      decide
    · exact all.2 c digit
  have value : ofDigits (List.replicate (places + 1 - digits.length) '0' ++ digits) = ofDigits digits := by
    rw [ofDigits_eq, Nat.ofDigitChars_append, Nat.ofDigitChars_replicate_zero, Nat.mul_zero, ofDigits_eq]
  unfold pointed
  dsimp only
  generalize List.replicate (places + 1 - digits.length) '0' ++ digits = padded at long member value
  refine ⟨_, _, rfl, ⟨?_, ?_⟩, ⟨?_, ?_⟩, ?_, ?_⟩
  · rw [← List.length_pos_iff, List.length_take]
    omega
  · exact fun c inside => member c (List.mem_of_mem_take inside)
  · rw [← List.length_pos_iff, List.length_drop]
    omega
  · exact fun c inside => member c (List.mem_of_mem_drop inside)
  · rw [List.length_drop]
    omega
  · rw [List.take_append_drop, value]

theorem positional_reads (d : Decimal) : Numeral d.positional ∧ worth (ofNumeral d.positional) = worth d := by
  unfold positional
  split
  next whole =>
    have digits := digits_digitText (d.digits * Nat.pow 10 d.exponent.toNat)
    refine ⟨.inl digits, ?_⟩
    rw [ofNumeral_digits digits, ofDigits_digitText]
    have exponent : (-d.exponent).toNat = 0 := by omega
    simp only [worth, ten_zpow d.exponent, exponent]
    simp
  next point =>
    obtain ⟨before, after, same, digits, places, length, value⟩ :=
      pointed_eq (digits_digitText d.digits) (show 0 < (-d.exponent).toNat by omega)
    rw [same]
    refine ⟨.inr ⟨before, after, rfl, digits, places⟩, ?_⟩
    rw [ofNumeral_pointed digits, value, ofDigits_digitText, length, Int.toNat_of_nonneg (by omega), neg_neg]

theorem magnitudeText_some {units : Nat} {d : Decimal} (found : singleDecimal? units = some d) :
    magnitudeText units = d.positional := by
  rw [magnitudeText, found, Option.map_some, Option.getD_some]

theorem text_reads {units : Nat} (single : (Number.finite false units).IsSingle) :
    ∃ numeral, (Number.finite false units).text = String.ofList numeral ∧ Numeral numeral ∧
      (ofDecimal false (ofNumeral numeral)).toSingle = .finite false units := by
  obtain ⟨d, found, reads⟩ := exists_singleDecimal single
  obtain ⟨numeral, same⟩ := positional_reads d
  refine ⟨d.positional, ?_, numeral, ?_⟩
  · have unsigned : signText false = [] := rfl
    rw [Number.text, unsigned, List.nil_append, magnitudeText_some found]
  · rw [ofDecimal_congr false same, reads]

theorem ofDecimal_single (negative : Bool) (d : Decimal) :
    (ofDecimal negative d).toSingle = .infinite negative ∨
      ∃ units, (ofDecimal negative d).toSingle = .finite negative units ∧
        (Number.finite negative units).IsSingle := by
  rcases round_cases .double negative (d.fraction.1 * one) d.fraction.2 with large | ⟨units, same⟩
  · left
    rw [ofDecimal, large]
    rfl
  · rw [ofDecimal, same]
    exact toSingle_cases negative units

end Lox.Proofs
