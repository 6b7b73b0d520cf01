import Lox.Proofs.ExactRounding
import Lox.Proofs.NumberText

/-! The text of every finite double reads back. Doubles are further apart than seventeen digits err,
so there is a shortest text that reads back as the double; singles do without it, since nine digits
recover them through the nearest double. Either way the text is a numeral, with a sign in front if
the number has one. -/

namespace Lox.Proofs
open Decimal Number

/-- The double nearest to what is within half of the seventeenth digit of a double is that double. -/
theorem Holds.nearest_of_seventeen {units num den : Nat} (held : Holds .double units) (positive : 0 < den)
    (close : |(num / den : ℚ) - units| * (2 * 10 ^ 16) ≤ units) : Format.double.nearest num den = units := by
  have precise : 0 < Format.double.precision := by decide
  have nearer : |(Format.double.nearest num den : ℚ) - num / den| ≤ |(units : ℚ) - num / den| :=
    held.closest precise positive
  have rounded := holds_nearest .double num positive
  generalize Format.double.nearest num den = near at nearer rounded
  have apart : |(near : ℚ) - units| * 10 ^ 16 ≤ units := by
    have triangle := abs_sub_le (near : ℚ) (num / den) units
    rw [abs_sub_comm (units : ℚ)] at nearer
    linarith
  rcases Nat.lt_trichotomy near units with less | same | more
  · have gap : near < (units - near) * 2 ^ 53 := rounded.lt_gap held precise less
    rw [abs_sub_comm, ← Nat.cast_sub less.le, Nat.abs_cast] at apart
    have apart' : (units - near) * 10 ^ 16 ≤ units := by exact_mod_cast apart
    omega
  · exact same
  · have gap : units < (near - units) * 2 ^ 53 := held.lt_gap rounded precise more
    rw [← Nat.cast_sub more.le, Nat.abs_cast] at apart
    have apart' : (near - units) * 10 ^ 16 ≤ units := by exact_mod_cast apart
    omega

/-- Seventeen digits recover every double. -/
theorem seventeen_digits {units : Nat} (held : Holds .double units) (small : units < 2 ^ Format.double.limit) :
    ofDecimal false (Decimal.nearest 17 units one) = .finite false units := by
  have error := nearest_error_scaled 16 units one_pos
  generalize Decimal.nearest 17 units one = d at error
  have close : |((d.fraction.1 * one : Nat) / d.fraction.2 : ℚ) - units| * (2 * 10 ^ 16) ≤ units := by
    rwa [Nat.cast_mul, mul_div_right_comm, fraction_worth]
  have found := held.nearest_of_seventeen (fraction_pos d) close
  rw [ofDecimal, round_of_lt false (found.trans_lt small), found]

theorem doubleDecimalOf?_reads {count units : Nat} {d : Decimal} (found : doubleDecimalOf? count units = some d) :
    ofDecimal false d = .finite false units := by
  unfold doubleDecimalOf? at found
  dsimp only at found
  have reads := List.find?_some found
  rwa [decide_eq_true_eq] at reads

theorem doubleDecimal_reads {units : Nat} (held : Holds .double units) (small : units < 2 ^ Format.double.limit) :
    ofDecimal false (doubleDecimal units) = .finite false units := by
  unfold doubleDecimal
  rw [ofDecimal_congr false (worth_trim _)]
  cases found : (List.range 17).findSome? fun fewer => doubleDecimalOf? (fewer + 1) units with
  | none => exact seventeen_digits held small
  | some d =>
    obtain ⟨fewer, -, passes⟩ := List.exists_of_findSome?_eq_some found
    exact doubleDecimalOf?_reads passes

theorem ofDigits_zero (digits : List Char) : ofDigits (digits ++ ['0']) = ofDigits digits * 10 := by
  rw [ofDigits, List.foldl_append]
  rfl

theorem withFraction_reads (d : Decimal) :
    Numeral (withFraction d) ∧ worth (ofNumeral (withFraction d)) = worth d := by
  have reads := positional_reads d
  unfold withFraction
  split
  next whole =>
    have digits : Digits d.positional := by
      rw [positional, if_pos whole]
      exact digits_digitText _
    have zero : Digits ['0'] := digits_digitText 0
    rw [ofNumeral_digits digits] at reads
    refine ⟨.inr ⟨_, _, rfl, digits, zero⟩, ?_⟩
    rw [ofNumeral_pointed digits, ofDigits_zero, ← reads.2]
    simp [worth]
  next => exact reads

theorem doubleText_reads (units : Nat) :
    Numeral (doubleText units) ∧ worth (ofNumeral (doubleText units)) = worth (doubleDecimal units) := by
  unfold doubleText
  dsimp only
  split
  · exact withFraction_reads _
  · exact positional_reads _

/-- Without zeros at the end of its digits, a decimal has none after its point. -/
theorem positional_trimmed {d : Decimal} (trimmed : Trimmed d) : ¬ ['.', '0'] <:+ d.positional := by
  rintro ⟨before, ends⟩
  unfold positional at ends
  split at ends
  next whole =>
    have digits := digits_digitText (d.digits * Nat.pow 10 d.exponent.toNat)
    rw [← ends] at digits
    exact digits.no_point (by simp)
  next point =>
    obtain ⟨whole, places, same, -, ⟨some, -⟩, -, value⟩ :=
      pointed_eq (digits_digitText d.digits) (show 0 < (-d.exponent).toNat by omega)
    obtain ⟨front, last, rfl⟩ := (List.eq_nil_or_concat' places).resolve_left some
    have split : (before ++ ['.']) ++ ['0'] = (whole ++ '.' :: front) ++ [last] := by
      simpa using ends.trans same
    obtain rfl : '0' = last := List.head_eq_of_cons_eq (List.append_inj' split rfl).2
    rw [ofDigits_digitText, ← List.append_assoc, ofDigits_zero] at value
    rcases trimmed with zero | ending
    · rw [zero] at point
      exact point le_rfl
    · omega

theorem magnitudeText_none {units : Nat} (missing : singleDecimal? units = none) :
    magnitudeText units = doubleText units := by
  rw [magnitudeText, missing, Option.map_none, Option.getD_none]

theorem magnitudeText_numeral (units : Nat) : Numeral (magnitudeText units) := by
  rcases Option.eq_none_or_eq_some (singleDecimal? units) with missing | ⟨d, found⟩
  · rw [magnitudeText_none missing]
    exact (doubleText_reads units).1
  · rw [magnitudeText_some found]
    exact (positional_reads d).1

theorem ofDecimal_signed {d : Decimal} {units : Nat} (reads : ofDecimal false d = .finite false units)
    (negative : Bool) : ofDecimal negative d = .finite negative units := by
  unfold ofDecimal at reads ⊢
  exact round_signed reads negative

theorem toSingle_ofDecimal_signed {d : Decimal} {units : Nat}
    (reads : (ofDecimal false d).toSingle = .finite false units) (negative : Bool) :
    (ofDecimal negative d).toSingle = .finite negative units := by
  rcases round_cases .double false (d.fraction.1 * one) d.fraction.2 with large | ⟨found, same⟩
  · rw [ofDecimal, large] at reads
    cases reads
  · rw [ofDecimal, same, toSingle_finite] at reads
    rw [ofDecimal, round_signed same, toSingle_finite, round_signed reads]

/-- `-?[0-9]+([.][0-9]+)?` -/
def SignedNumeral (text : List Char) : Prop := Numeral text ∨ ∃ numeral, text = '-' :: numeral ∧ Numeral numeral

/-- The double nearest to the decimal that a text is, with the sign that stands in front. -/
def readDouble (text : List Char) : Number :=
  if text.head? = some '-' then ofDecimal true (ofNumeral text.tail) else ofDecimal false (ofNumeral text)

section
variable {numeral : List Char}

theorem Numeral.head?_ne_sign (member : Numeral numeral) : numeral.head? ≠ some '-' := by
  obtain ⟨first, more, rfl, digit⟩ := member.exists_digit
  intro head
  cases Option.some.inj head
  cases digit

theorem signed_numeral (negative : Bool) (member : Numeral numeral) : SignedNumeral (signText negative ++ numeral) := by
  cases negative with
  | false => exact .inl member
  | true => exact .inr ⟨numeral, rfl, member⟩

theorem signed_head (negative : Bool) (member : Numeral numeral) :
    (signText negative ++ numeral).head? = some '-' ↔ negative = true := by
  cases negative with
  | false => exact iff_of_false member.head?_ne_sign Bool.false_ne_true
  | true => exact iff_of_true rfl rfl

theorem readDouble_signed (negative : Bool) (member : Numeral numeral) :
    readDouble (signText negative ++ numeral) = ofDecimal negative (ofNumeral numeral) := by
  have sign := signed_head negative member
  unfold readDouble
  cases negative with
  | true =>
    have tail : (signText true ++ numeral).tail = numeral := rfl
    rw [if_pos (sign.mpr rfl), tail]
  | false =>
    have whole : signText false ++ numeral = numeral := rfl
    rw [if_neg (mt sign.mp Bool.false_ne_true), whole]

end

section
variable {negative : Bool} {units : Nat}

theorem representable_single_iff :
    Representable .single (amount negative units) ↔ (Number.finite negative units).IsSingle := by
  rw [isSingle_finite_iff]
  exact representable_amount_iff (by decide)

theorem text_finite (negative : Bool) (units : Nat) :
    (Number.finite negative units).text.toList = signText negative ++ magnitudeText units := by
  rw [Number.text, String.toList_ofList]

/-- The first nine counts of digits find nothing for a double that is no single. -/
theorem singleDecimal?_eq_none (other : ¬ (Number.finite negative units).IsSingle) : singleDecimal? units = none := by
  rw [Option.eq_none_iff_forall_ne_some]
  intro d found
  obtain ⟨_, _, _, reads⟩ := singleDecimal?_eq_some found
  have signed := toSingle_ofDecimal_signed reads negative
  apply other
  rw [← signed]
  exact isSingle_toSingle _

theorem readDouble_doubleText (held : Holds .double units) (small : units < 2 ^ Format.double.limit)
    (negative : Bool) : readDouble (signText negative ++ doubleText units) = .finite negative units := by
  obtain ⟨numeral, same⟩ := doubleText_reads units
  rw [readDouble_signed negative numeral, ofDecimal_congr negative same]
  exact ofDecimal_signed (doubleDecimal_reads held small) negative

theorem readDouble_positional {d : Decimal} (reads : (ofDecimal false d).toSingle = .finite false units)
    (negative : Bool) : (readDouble (signText negative ++ d.positional)).toSingle = .finite negative units := by
  obtain ⟨numeral, same⟩ := positional_reads d
  rw [readDouble_signed negative numeral, ofDecimal_congr negative same]
  exact toSingle_ofDecimal_signed reads negative

theorem signed_trimmed {d : Decimal} (trimmed : Trimmed d) (negative : Bool) :
    ¬ ['.', '0'] <:+ signText negative ++ d.positional := by
  cases negative with
  | false => exact positional_trimmed trimmed
  | true =>
    intro ends
    rcases List.suffix_cons_iff.mp ends with whole | ends
    · cases whole
    · exact positional_trimmed trimmed ends

end

/-- The text of a finite double is a numeral, behind a sign exactly if the number has one. A single is
written with the digits of one of the first nine counts and reads back as that single; any other double
reads back as that double. -/
theorem text_faithful (negative : Bool) (units : Nat) (double : Representable .double (amount negative units)) :
    SignedNumeral (Number.finite negative units).text.toList ∧
    ((Number.finite negative units).text.toList.head? = some '-' ↔ negative = true) ∧
    (Representable .single (amount negative units) →
      (∃ d, singleDecimal? units = some d ∧ digitCount d.digits ≤ 9 ∧
        (Number.finite negative units).text.toList = signText negative ++ d.positional) ∧
      ¬ ['.', '0'] <:+ (Number.finite negative units).text.toList ∧
      (readDouble (Number.finite negative units).text.toList).toSingle = .finite negative units) ∧
    (¬ Representable .single (amount negative units) →
      readDouble (Number.finite negative units).text.toList = .finite negative units) := by
  obtain ⟨held, small⟩ := (representable_amount_iff (by decide)).mp double
  have numeral := magnitudeText_numeral units
  rw [text_finite, representable_single_iff]
  refine ⟨signed_numeral negative numeral, signed_head negative numeral, fun single => ?_, fun other => ?_⟩
  · obtain ⟨d, found, reads⟩ := exists_singleDecimal (isSingle_magnitude single)
    obtain ⟨fewer, few, same, -⟩ := singleDecimal?_eq_some found
    rw [magnitudeText_some found]
    refine ⟨⟨d, found, ?_, rfl⟩, ?_, readDouble_positional reads negative⟩
    · rw [same]
      exact (digitCount_nearest_trim fewer units one_pos).trans few
    · rw [same]
      exact signed_trimmed (trimmed_trim _) negative
  · rw [magnitudeText_none (singleDecimal?_eq_none other)]
    exact readDouble_doubleText held small negative

/-- The least double is no single; the least single is written with its own digits. -/
theorem text_leastDouble_leastSingle :
    (Representable .double (amount true (2 ^ 0 : Nat)) ∧ ¬ Representable .single (amount true (2 ^ 0 : Nat)) ∧
      readDouble (Number.finite true (2 ^ 0)).text.toList = .finite true (2 ^ 0)) ∧
    (Representable .double (amount false (2 ^ 925 : Nat)) ∧ Representable .single (amount false (2 ^ 925 : Nat)) ∧
      ¬ ['.', '0'] <:+ (Number.finite false (2 ^ 925)).text.toList ∧
      (readDouble (Number.finite false (2 ^ 925)).text.toList).toSingle = .finite false (2 ^ 925)) := by
  have precise : 0 < Format.single.precision := by decide
  have precise' : 0 < Format.double.precision := by decide
  constructor
  · have double : Representable .double (amount true (2 ^ 0 : Nat)) :=
      representable_power precise' true (by decide) (by decide)
    have other : ¬ Representable .single (amount true (2 ^ 0 : Nat)) := by
      rw [representable_amount_iff precise]
      rintro ⟨⟨significand, exponent, same, -, fine⟩, -⟩
      have unit := Nat.eq_one_of_mul_eq_one_left same.symm
      have none : exponent = 0 := (Nat.pow_eq_one.mp unit).resolve_left (by decide)
      rw [none] at fine
      exact absurd fine (by decide)
    exact ⟨double, other, (text_faithful true _ double).2.2.2 other⟩
  · have double : Representable .double (amount false (2 ^ 925 : Nat)) :=
      representable_power precise' false (by decide) (by decide)
    have single : Representable .single (amount false (2 ^ 925 : Nat)) :=
      representable_power precise false (by decide) (by decide)
    obtain ⟨-, bare, reads⟩ := (text_faithful false _ double).2.2.1 single
    exact ⟨double, single, bare, reads⟩

end Lox.Proofs
