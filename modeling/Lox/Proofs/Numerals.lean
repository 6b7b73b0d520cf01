import Lox.Proofs.CorrectRounding
import Lox.Proofs.InfixText
import Lox.Proofs.ShortestText

/-! Numerals and the numbers they are read as. A numeral has an exact value, whatever its length, and is read as
a single by way of the nearest double. That is not always the nearest single, but reading keeps the order of
values and gives a single for itself, and zeros that do not change the value do not change what is read. -/

namespace Lox.Proofs
open Decimal Number

def digitValue (c : Char) : ℚ := (c.toNat - '0'.toNat : Nat)

/-- The value of the digits before the point: the last one counts ones. -/
def wholeValue : List Char → ℚ
  | [] => 0
  | c :: more => digitValue c * 10 ^ more.length + wholeValue more

/-- The value of the digits after the point: the first one counts tenths. -/
def placesValue : List Char → ℚ
  | [] => 0
  | c :: more => (digitValue c + placesValue more) / 10

/-- The exact value of a numeral. -/
inductive Denotes : List Char → ℚ → Prop where
  | whole {digits : List Char} (all : Digits digits) : Denotes digits (wholeValue digits)
  | pointed {whole places : List Char} (all : Digits whole) (all' : Digits places) :
      Denotes (whole ++ '.' :: places) (wholeValue whole + placesValue places)

/-- The number that a token with this lexeme stands for, in whatever source it is found. -/
def LiteralOf (text : List Char) (x : Number) : Prop :=
  ∃ source, ∃ token ∈ (scan source).tokens,
    token.kind = .number ∧ token.lexeme.toList = text ∧ token.literal = .number x

/-- What is no less than the bound; an infinity without a sign is. -/
def AtLeast (bound : ℚ) : Number → Prop
  | .nan => False
  | .infinite negative => negative = false
  | .finite negative units => bound ≤ amount negative units

section
variable {text text' whole places digits : List Char} {value value' : ℚ} {x x' : Number} {d d' : Decimal}

theorem ofDigits_append (whole places : List Char) :
    ofDigits (whole ++ places) = ofDigits whole * 10 ^ places.length + ofDigits places := by
  rw [ofDigits_eq, ofDigits_eq, ofDigits_eq, Nat.ofDigitChars_append, Nat.ofDigitChars_eq_ofDigitChars_zero,
    Nat.mul_comm]

theorem ofDigits_cons (c : Char) (more : List Char) :
    (ofDigits (c :: more) : ℚ) = digitValue c * 10 ^ more.length + ofDigits more := by
  have first : ofDigits [c] = c.toNat - '0'.toNat := Nat.zero_add _
  have parts := ofDigits_append [c] more
  rw [first, List.singleton_append] at parts
  rw [parts, digitValue]
  push_cast
  rfl

theorem wholeValue_eq (digits : List Char) : wholeValue digits = ofDigits digits := by
  induction digits with
  | nil => rfl
  | cons c more ih => rw [wholeValue, ofDigits_cons, ih]

theorem placesValue_eq (places : List Char) : placesValue places * 10 ^ places.length = ofDigits places := by
  induction places with
  | nil => exact zero_mul _
  | cons c more ih =>
    rw [placesValue, ofDigits_cons, ← ih, List.length_cons, pow_succ]
    ring

theorem Denotes.numeral (denotes : Denotes text value) : Numeral text := by
  cases denotes with
  | whole all => exact .inl all
  | pointed all all' => exact .inr ⟨_, _, rfl, all, all'⟩

theorem Numeral.exists_denotes (numeral : Numeral text) : ∃ value, Denotes text value := by
  rcases numeral with all | ⟨whole, places, rfl, all, all'⟩
  · exact ⟨_, .whole all⟩
  · exact ⟨_, .pointed all all'⟩

/-- The decimal that a numeral is taken for is worth its value. -/
theorem Denotes.worth_eq (denotes : Denotes text value) : worth (ofNumeral text) = value := by
  cases denotes with
  | whole all => rw [ofNumeral_digits all, worth, wholeValue_eq, zpow_zero, mul_one]
  | @pointed whole places all all' =>
    have power : (10 : ℚ) ^ places.length ≠ 0 := by positivity
    rw [ofNumeral_pointed all, worth, ofDigits_append, wholeValue_eq, zpow_neg, zpow_natCast,
      mul_inv_eq_iff_eq_mul₀ power, add_mul, placesValue_eq]
    push_cast
    rfl

theorem wholeValue_leading (zeros : Nat) (digits : List Char) :
    wholeValue (List.replicate zeros '0' ++ digits) = wholeValue digits := by
  have zero : digitValue '0' = 0 := rfl
  induction zeros with
  | zero => rfl
  | succ zeros ih => rw [List.replicate_succ, List.cons_append, wholeValue, zero, zero_mul, zero_add, ih]

theorem placesValue_zeros (zeros : Nat) : placesValue (List.replicate zeros '0') = 0 := by
  have zero : digitValue '0' = 0 := rfl
  induction zeros with
  | zero => rfl
  | succ zeros ih => rw [List.replicate_succ, placesValue, zero, zero_add, ih, zero_div]

theorem placesValue_trailing (places : List Char) (zeros : Nat) :
    placesValue (places ++ List.replicate zeros '0') = placesValue places := by
  induction places with
  | nil => exact placesValue_zeros zeros
  | cons c more ih => rw [List.cons_append, placesValue, placesValue, ih]

theorem digits_of_all (some : digits ≠ []) (all : digits.all Char.isDigit = true) : Digits digits :=
  ⟨some, fun c member => isDigit_iff.mp (List.all_eq_true.mp all c member)⟩

theorem digit_of_mem_zeros {zeros : Nat} : ∀ c ∈ List.replicate zeros '0', Digit c := by
  intro c member
  rw [List.eq_of_mem_replicate member]
  decide

theorem Digits.leading (all : Digits digits) (zeros : Nat) : Digits (List.replicate zeros '0' ++ digits) := by
  refine ⟨List.append_ne_nil_of_right_ne_nil _ all.1, fun c member => ?_⟩
  rcases List.mem_append.mp member with zero | digit
  · exact digit_of_mem_zeros c zero
  · exact all.2 c digit

theorem Digits.trailing (all : Digits digits) (zeros : Nat) : Digits (digits ++ List.replicate zeros '0') := by
  refine ⟨List.append_ne_nil_of_left_ne_nil all.1 _, fun c member => ?_⟩
  rcases List.mem_append.mp member with digit | zero
  · exact all.2 c digit
  · exact digit_of_mem_zeros c zero

theorem Denotes.leading (denotes : Denotes text value) (zeros : Nat) :
    Denotes (List.replicate zeros '0' ++ text) value := by
  cases denotes with
  | whole all =>
    rw [← wholeValue_leading zeros]
    exact .whole (all.leading zeros)
  | @pointed whole places all all' =>
    rw [← List.append_assoc, ← wholeValue_leading zeros whole]
    exact .pointed (all.leading zeros) all'

theorem Denotes.trailing (denotes : Denotes text value) (point : '.' ∈ text) (zeros : Nat) :
    Denotes (text ++ List.replicate zeros '0') value := by
  cases denotes with
  | whole all => exact absurd point all.no_point
  | @pointed whole places all all' =>
    rw [List.append_assoc, List.cons_append, ← placesValue_trailing places zeros]
    exact .pointed all (all'.trailing zeros)

theorem Denotes.fraction (denotes : Denotes text value) (bare : '.' ∉ text) (zeros : Nat) :
    Denotes (text ++ '.' :: List.replicate (zeros + 1) '0') value := by
  cases denotes with
  | whole all =>
    rw [← add_zero (wholeValue text), ← placesValue_zeros (zeros + 1)]
    exact .pointed all ⟨by simp, digit_of_mem_zeros⟩
  | pointed => exact absurd (by simp) bare

/-- The literal of a numeral does not depend on the source. -/
theorem literalOf_iff : LiteralOf text x ↔ Numeral text ∧ (ofDecimal false (ofNumeral text)).toSingle = x := by
  constructor
  · rintro ⟨source, token, member, kind, rfl, literal⟩
    rcases (cuts_segments source.toList).mem_tokens member with last | ⟨found, taken, rest, line, lexical, rfl⟩
    · cases kind.symm.trans last
    · obtain rfl : found = .number := kind
      have lexeme : (Token.ofLexeme .number taken line).lexeme.toList = taken := String.toList_ofList
      rw [lexeme]
      cases lexical with
      | number longest => exact ⟨longest.member, Value.number.inj literal⟩
  · rintro ⟨numeral, rfl⟩
    have longest : Longest Numeral text [] := longest_apart numeral (fun _ other => other.solid) (by simp [Apart])
    have scans := scans_token (.number longest) 1
    rw [List.append_nil] at scans
    refine ⟨String.ofList text, .ofLexeme .number text (1 + newlines text), ?_, rfl, String.toList_ofList, rfl⟩
    rw [scans.scan_eq]
    exact List.mem_cons_self

theorem LiteralOf.exists_denotes (literal : LiteralOf text x) : ∃ value, Denotes text value :=
  (literalOf_iff.mp literal).1.exists_denotes

/-- Numerals of one value have one literal. -/
theorem LiteralOf.respell (literal : LiteralOf text x) (denotes : Denotes text value)
    (denotes' : Denotes text' value) : LiteralOf text' x := by
  rw [literalOf_iff] at literal ⊢
  have same : ofDecimal false (ofNumeral text) = ofDecimal false (ofNumeral text') :=
    ofDecimal_congr false (denotes.worth_eq.trans denotes'.worth_eq.symm)
  exact ⟨denotes'.numeral, same ▸ literal.2⟩

theorem ofDecimal_le (order : worth d ≤ worth d') : (ofDecimal false d).le (ofDecimal false d') = true := by
  apply round_le (by decide) (fraction_pos d) (fraction_pos d')
  rw [worth_units, worth_units]
  exact mul_le_mul_of_nonneg_right order one_cast_pos.le

theorem ofDecimal_rounds (d : Decimal) : Rounds .double (.value false (worth d)) (ofDecimal false d) := by
  have rounds := @round_rounds .double (d.fraction.1 * one) d.fraction.2 regular_double (fraction_pos d) false
  rwa [worth_units, amount_false, mul_div_cancel_right₀ _ one_cast_pos.ne'] at rounds

theorem worth_nonneg (d : Decimal) : 0 ≤ worth d := by
  unfold worth
  positivity

theorem Representable.units_of_nonneg {format : Format} (member : Representable format value) (positive : 0 ≤ value) :
    ∃ units : Nat, value = amount false units := by
  obtain ⟨units, -, same | opposite⟩ := member.exists_units false
  · exact ⟨units, same⟩
  · have none : units = 0 := by
      rw [opposite, amount_false, le_div_iff₀ one_cast_pos, zero_mul, neg_nonneg] at positive
      exact Nat.le_zero.mp (by exact_mod_cast positive)
    refine ⟨0, ?_⟩
    rw [opposite, none, Nat.cast_zero, neg_zero]

/-- A decimal that is worth a single is read as that single. -/
theorem exact_ofDecimal (single : Representable .single (worth d)) :
    exact (ofDecimal false d).toSingle = .value false (worth d) := by
  obtain ⟨units, value⟩ := single.units_of_nonneg (worth_nonneg d)
  rw [value, representable_amount_iff (by decide)] at single
  obtain ⟨held, small⟩ := single
  have fraction : ((d.fraction.1 * one : Nat) / d.fraction.2 : ℚ) = units / (1 : Nat) := by
    rw [worth_units, value, amount_false, div_mul_cancel₀ _ one_cast_pos.ne', Nat.cast_one, div_one]
  have read : readUnits d = units :=
    calc
      readUnits d = reading units 1 := le_antisymm (reading_mono (fraction_pos d) Nat.one_pos fraction.le)
        (reading_mono Nat.one_pos (fraction_pos d) fraction.ge)
      _ = units := reading_self held
  rw [(toSingle_ofDecimal_iff small).mpr ⟨rfl, read⟩, value]
  rfl

/-- A double without a sign becomes infinite as a single exactly from 2^128 - 2^103 on. -/
theorem toSingle_infinite_iff (d : Decimal) :
    (ofDecimal false d).toSingle = .infinite false ↔ AtLeast (2 ^ 128 - 2 ^ 103) (ofDecimal false d) := by
  rw [← threshold_single]
  rcases round_cases .double false (d.fraction.1 * one) d.fraction.2 with large | ⟨units, same⟩
  · rw [ofDecimal, large]
    exact iff_of_true rfl rfl
  · rw [ofDecimal, same]
    change _ ↔ threshold .single ≤ amount false units
    have magnitude : |amount false units| = amount false units := by
      rw [abs_amount, amount_false, Nat.abs_cast]
    constructor
    · intro infinite
      by_contra small
      obtain ⟨rounded, finite, -⟩ := toSingle_of_small (magnitude.trans_lt (lt_of_not_ge small))
      cases infinite.symm.trans finite
    · intro large
      exact toSingle_of_large (large.trans_eq magnitude.symm)

end

/-- Every numeral, of any length, has one literal. A numeral of greater value has no lesser literal, and the literal
of a single is that single. Zeros in front and zeros at the end of a fraction do not matter. A literal is no NaN and
has no sign, and it is infinite exactly if the double nearest to the value, which the literal is rounded from, is at
least 2^128 - 2^103. -/
theorem numerals_read_in_order :
    (∀ text, (∃ value, Denotes text value) ↔ ∃! x, LiteralOf text x) ∧
    (∀ text value x text' value' x', Denotes text value → LiteralOf text x → Denotes text' value' →
      LiteralOf text' x' → value ≤ value' → x.le x' = true) ∧
    (∀ text value x, Denotes text value → LiteralOf text x → Representable .single value →
      exact x = .value false value) ∧
    (∀ text x zeros, LiteralOf text x → LiteralOf (List.replicate zeros '0' ++ text) x ∧
      ('.' ∈ text → LiteralOf (text ++ List.replicate zeros '0') x) ∧
      ('.' ∉ text → LiteralOf (text ++ '.' :: List.replicate (zeros + 1) '0') x)) ∧
    (∀ text value x, Denotes text value → LiteralOf text x →
      (x = .infinite false ∨ ∃ units, x = .finite false units) ∧
      ∃ wide, Rounds .double (.value false value) wide ∧ Rounds .single (exact wide) x ∧
        (x = .infinite false ↔ AtLeast (2 ^ 128 - 2 ^ 103) wide)) := by
  refine ⟨?_, ?_, ?_, ?_, ?_⟩
  · intro text
    constructor
    · rintro ⟨value, denotes⟩
      refine ⟨_, literalOf_iff.mpr ⟨denotes.numeral, rfl⟩, fun x literal => ?_⟩
      exact (literalOf_iff.mp literal).2.symm
    · rintro ⟨x, literal, -⟩
      exact literal.exists_denotes
  · intro text value x text' value' x' denotes literal denotes' literal' order
    obtain ⟨-, rfl⟩ := literalOf_iff.mp literal
    obtain ⟨-, rfl⟩ := literalOf_iff.mp literal'
    rw [← denotes.worth_eq, ← denotes'.worth_eq] at order
    exact toSingle_mono (ofDecimal_le order)
  · intro text value x denotes literal single
    obtain ⟨-, rfl⟩ := literalOf_iff.mp literal
    rw [← denotes.worth_eq] at single ⊢
    exact exact_ofDecimal single
  · intro text x zeros literal
    obtain ⟨value, denotes⟩ := literal.exists_denotes
    exact ⟨literal.respell denotes (denotes.leading zeros),
      fun point => literal.respell denotes (denotes.trailing point zeros),
      fun bare => literal.respell denotes (denotes.fraction bare zeros)⟩
  · intro text value x denotes literal
    obtain ⟨-, rfl⟩ := literalOf_iff.mp literal
    refine ⟨?_, ofDecimal false (ofNumeral text), ?_, toSingle_rounds _, toSingle_infinite_iff _⟩
    · rcases ofDecimal_single false (ofNumeral text) with infinite | ⟨units, finite, -⟩
      · exact .inl infinite
      · exact .inr ⟨units, finite⟩
    · rw [← denotes.worth_eq]
      exact ofDecimal_rounds _

/-- 2^24 + 1, in the middle between two singles. -/
def middle : List Char := ['1', '6', '7', '7', '7', '2', '1', '7']

def billionth : List Char := ['0', '0', '0', '0', '0', '0', '0', '0', '1']

/-- Above the middle, the nearest single would be 2^24 + 2. Both numerals are read as 2^24 all the same, for the
nearest double is the middle, and so they are in order. Seven and a half is a single, with zeros around it or
without. -/
theorem numerals_read_above_middle :
    (Denotes middle 16777217 ∧ LiteralOf middle (.finite false (Nat.pow 2 1098)) ∧
      Denotes (middle ++ '.' :: billionth) (16777217 + 1 / 10 ^ 9) ∧
      LiteralOf (middle ++ '.' :: billionth) (.finite false (Nat.pow 2 1098)) ∧
      (Number.finite false (Nat.pow 2 1098)).le (.finite false (Nat.pow 2 1098)) = true) ∧
    (Denotes ['7', '.', '5'] (7 + 5 / 10) ∧ Representable .single (7 + 5 / 10) ∧
      ∃ x, LiteralOf ['7', '.', '5'] x ∧ LiteralOf ['0', '0', '7', '.', '5', '0'] x ∧
        exact x = .value false (7 + 5 / 10)) := by
  obtain ⟨reads, ordered, exactly, zeros, -⟩ := numerals_read_in_order
  constructor
  · have digits : Digits middle := digits_of_all (List.cons_ne_nil _ _) rfl
    have whole : wholeValue middle = 16777217 := by
      rw [wholeValue_eq]
      exact congrArg Nat.cast (show ofDigits middle = 16777217 from rfl)
    have places : placesValue billionth = 1 / 10 ^ 9 := by
      have scaled : placesValue billionth * 10 ^ 9 = (1 : Nat) := placesValue_eq billionth
      rw [eq_div_iff (by norm_num), scaled, Nat.cast_one]
    have first : Denotes middle 16777217 := whole ▸ .whole digits
    have second : Denotes (middle ++ '.' :: billionth) (16777217 + 1 / 10 ^ 9) := by
      rw [← whole, ← places]
      exact .pointed digits (digits_of_all (List.cons_ne_nil _ _) rfl)
    have literal : LiteralOf middle (.finite false (Nat.pow 2 1098)) :=
      literalOf_iff.mpr ⟨first.numeral, by decide +kernel⟩
    have literal' : LiteralOf (middle ++ '.' :: billionth) (.finite false (Nat.pow 2 1098)) :=
      literalOf_iff.mpr ⟨second.numeral, by decide +kernel⟩
    exact ⟨first, literal, second, literal', ordered _ _ _ _ _ _ first literal second literal' (by norm_num)⟩
  · have denotes : Denotes ['7', '.', '5'] (7 + 5 / 10) := by
      have value : wholeValue ['7'] + placesValue ['5'] = 7 + 5 / 10 := by
        rw [wholeValue, wholeValue, placesValue, placesValue]
        norm_num [show digitValue '7' = 7 from rfl, show digitValue '5' = 5 from rfl]
      rw [← value]
      exact @Denotes.pointed ['7'] ['5'] (digits_of_all (List.cons_ne_nil _ _) rfl)
        (digits_of_all (List.cons_ne_nil _ _) rfl)
    have single : Representable .single (7 + 5 / 10) := by
      refine ⟨⟨15, -1, by norm_num, by decide, by decide⟩, ?_⟩
      have limit : ((Format.single.limit : ℤ) - 1074) = (128 : Nat) := by decide
      rw [limit, zpow_natCast]
      norm_num
    obtain ⟨x, literal, -⟩ := (reads _).mp ⟨_, denotes⟩
    have padded := (zeros _ _ 1 ((zeros _ _ 2 literal).1)).2.1 (by decide)
    exact ⟨denotes, single, x, literal, padded, exactly _ _ _ denotes literal single⟩

end Lox.Proofs
