import Mathlib.Data.List.TakeWhile
import Lox.Proofs.Lexical

/-! Scanning a stretch follows the lexical grammar, and the grammar leaves it no choice: from
a given text exactly one stretch can be taken. -/

namespace Lox.Proofs
open Lexeme

theorem head_dropWhile {p : Char → Bool} {text rest : List Char} {c : Char}
    (found : text.dropWhile p = c :: rest) : p c = false := by
  have first := List.head?_dropWhile_not p text
  rw [found] at first
  exact first

/-- A run of characters of a class, up to the first of another class or the end. -/
theorem span_eq {p : Char → Bool} {run rest : List Char} (all : ∀ c ∈ run, p c = true)
    (stop : ∀ c, rest.head? = some c → p c = false) :
    (run ++ rest).takeWhile p = run ∧ (run ++ rest).dropWhile p = rest := by
  rw [List.takeWhile_append_of_pos all, List.dropWhile_append_of_pos all]
  cases rest with
  | nil => simp
  | cons c rest =>
    have other := stop c rfl
    simp [other]

theorem span_until {c : Char} {run rest : List Char} (absent : c ∉ run)
    (stop : ∀ next, rest.head? = some next → next = c) :
    (run ++ rest).takeWhile (· ≠ c) = run ∧ (run ++ rest).dropWhile (· ≠ c) = rest := by
  apply span_eq
  · intro d member
    exact decide_eq_true fun same => absent (same ▸ member)
  · intro next head
    simp [stop next head]

theorem longest_word {first : Char} {rest : List Char} (start : isWordStart first = true) :
    Longest Word ((first :: rest).takeWhile isWordChar) ((first :: rest).dropWhile isWordChar) := by
  have inside : isWordChar first = true := by simp [isWordChar, start]
  constructor
  · refine ⟨first, rest.takeWhile isWordChar, List.takeWhile_cons_of_pos inside, isWordStart_iff.mp start, ?_⟩
    exact fun c member => isWordChar_iff.mp (List.mem_takeWhile_imp member)
  · intro more after split longer
    cases more with
    | nil => rfl
    | cons c more =>
      obtain ⟨_, tail, same, _, all⟩ := longer
      rw [List.takeWhile_cons_of_pos inside] at same
      have member : c ∈ tail := by
        rw [← (List.cons.inj same).2]
        simp
      have stops := head_dropWhile split
      rw [isWordChar_iff.mpr (all c member)] at stops
      cases stops

theorem Numeral.chars {text : List Char} (numeral : Numeral text) :
    ∀ c ∈ text, Digit c ∨ c = '.' := by
  intro c member
  rcases numeral with ⟨_, all⟩ | ⟨whole, places, rfl, ⟨_, first⟩, _, second⟩
  · exact .inl (all c member)
  · rcases List.mem_append.mp member with before | after
    · exact .inl (first c before)
    · rcases List.mem_cons.mp after with point | place
      · exact .inr point
      · exact .inl (second c place)

/-- A numeral has its point after the first run of digits, and digits after the point. -/
theorem Numeral.places {whole more : List Char} (digits : ∀ c ∈ whole, Digit c)
    (numeral : Numeral (whole ++ '.' :: more)) : Digits more := by
  have before {run rest : List Char} (all : ∀ c ∈ run, Digit c) :
      (run ++ '.' :: rest).takeWhile Char.isDigit = run :=
    (span_eq (fun c member => isDigit_iff.mpr (all c member)) (by simp)).1
  rcases numeral with ⟨_, all⟩ | ⟨whole', places, same, ⟨_, first⟩, second⟩
  · exact absurd (all '.' (by simp)) (by decide)
  · have equal := congrArg (List.takeWhile Char.isDigit) same
    rw [before digits, before first] at equal
    subst equal
    exact (List.cons.inj (List.append_cancel_left same)).2 ▸ second

private theorem digits_takeWhile {first : Char} {rest : List Char} (digit : first.isDigit = true) :
    Digits ((first :: rest).takeWhile Char.isDigit) := by
  refine ⟨by simp [digit], fun c member => isDigit_iff.mp (List.mem_takeWhile_imp member)⟩

private theorem digits_of_places {rest : List Char} (some : rest.takeWhile Char.isDigit ≠ []) :
    Digits (rest.takeWhile Char.isDigit) :=
  ⟨some, fun _ member => isDigit_iff.mp (List.mem_takeWhile_imp member)⟩

/-- Without a fractional part nothing can be added: neither a digit, nor a point, which would
need a digit after it. -/
private theorem longest_whole {whole rest : List Char} (digits : Digits whole)
    (stop : ∀ c, rest.head? = some c → ¬ Digit c)
    (point : ∀ c more, rest = '.' :: c :: more → ¬ Digit c) : Longest Numeral whole rest := by
  refine ⟨.inl digits, fun more after split longer => ?_⟩
  cases more with
  | nil => rfl
  | cons c more =>
    have notDigit := stop c (by simp [split])
    obtain rfl : c = '.' := (longer.chars c (by simp)).resolve_left notDigit
    obtain ⟨some, all⟩ := Numeral.places digits.2 longer
    obtain ⟨place, later, rfl⟩ := List.exists_cons_of_ne_nil some
    exact absurd (all place (by simp)) (point place (later ++ after) (by simpa using split))

private theorem longest_pointed {whole places rest : List Char} (digits : Digits whole)
    (fraction : Digits places) (stop : ∀ c, rest.head? = some c → ¬ Digit c) :
    Longest Numeral (whole ++ '.' :: places) rest := by
  refine ⟨.inr ⟨whole, places, rfl, digits, fraction⟩, fun more after split longer => ?_⟩
  cases more with
  | nil => rfl
  | cons c more =>
    rw [List.append_assoc, List.cons_append] at longer
    have all := (Numeral.places digits.2 longer).2
    exact absurd (all c (by simp)) (stop c (by simp [split]))

private theorem stop_of_dropWhile (text : List Char) :
    ∀ c, (text.dropWhile Char.isDigit).head? = some c → ¬ Digit c := by
  intro c found digit
  obtain ⟨rest, split⟩ := List.head?_eq_some_iff.mp found
  have stops := head_dropWhile split
  rw [isDigit_iff.mpr digit] at stops
  cases stops

theorem longest_numeral {first : Char} {rest : List Char} (digit : first.isDigit = true) :
    Longest Numeral (numeral (first :: rest)).1 (numeral (first :: rest)).2 := by
  have whole : Digits ((first :: rest).takeWhile Char.isDigit) := digits_takeWhile digit
  have stop := stop_of_dropWhile (first :: rest)
  unfold numeral
  split
  case h_1 more point =>
    dsimp only
    split
    case isTrue none =>
      rw [point] at stop
      refine longest_whole whole stop fun c later same => ?_
      obtain rfl := (List.cons.inj same).2
      intro place
      simp [isDigit_iff.mpr place] at none
    case isFalse some =>
      exact longest_pointed whole (digits_of_places (by simpa using some)) (stop_of_dropWhile more)
  case h_2 other =>
    exact longest_whole whole stop fun c later same => absurd same (other _)

theorem closeComment_first {text taken rest : List Char}
    (found : closeComment text = some (taken, rest)) :
    ∃ body, taken = body ++ ['*', '/'] ∧
      ∀ before after, taken = before ++ '*' :: '/' :: after → after = [] := by
  induction text using closeComment.induct generalizing taken rest with
  | case1 => cases found
  | case2 more =>
    cases found
    refine ⟨[], rfl, fun before after same => ?_⟩
    have size := congrArg List.length same
    simp only [List.length_cons, List.length_append, List.length_nil] at size
    exact List.eq_nil_of_length_eq_zero (by omega)
  | case3 c more other ih =>
    rw [closeComment] at found
    · obtain ⟨⟨inner, after⟩, later, same⟩ := Option.map_eq_some_iff.mp found
      cases same
      obtain ⟨body, rfl, first⟩ := ih later
      refine ⟨c :: body, rfl, fun before after same => ?_⟩
      cases before with
      | nil =>
        obtain ⟨rfl, tail⟩ := List.cons.inj same
        have whole := closeComment_append later
        rw [tail] at whole
        exact absurd whole.symm (other _ rfl)
      | cons b before => exact first before after (List.cons.inj same).2
    · exact other

theorem closeComment_none {text : List Char} (missing : closeComment text = none) :
    ∀ before after, text ≠ before ++ '*' :: '/' :: after := by
  induction text using closeComment.induct with
  | case1 => simp
  | case2 more => cases missing
  | case3 c more other ih =>
    intro before after same
    rw [closeComment, Option.map_eq_none_iff] at missing
    · cases before with
      | nil =>
        obtain ⟨rfl, tail⟩ := List.cons.inj same
        exact other _ rfl tail
      | cons b before => exact ih missing before after (List.cons.inj same).2
    · exact other

theorem closeComment_complete {body rest : List Char}
    (first : ∀ before after, body ++ ['*', '/'] = before ++ '*' :: '/' :: after → after = []) :
    closeComment (body ++ '*' :: '/' :: rest) = some (body ++ ['*', '/'], rest) := by
  cases found : closeComment (body ++ '*' :: '/' :: rest) with
  | none => exact absurd rfl (closeComment_none found body rest)
  | some parts =>
    obtain ⟨taken, after⟩ := parts
    obtain ⟨body', rfl, first'⟩ := closeComment_first found
    have whole : body' ++ ['*', '/'] ++ after = body ++ ['*', '/'] ++ rest := by
      simpa using closeComment_append found
    rcases List.append_eq_append_iff.mp whole with ⟨more, longer, split⟩ | ⟨more, longer, split⟩
    · obtain rfl := first body' more (by simpa using longer)
      rw [List.append_nil] at longer
      rw [longer, split, List.nil_append]
    · obtain rfl := first' body more (by simpa using longer)
      rw [List.append_nil] at longer
      rw [longer, split, List.nil_append]

theorem closeComment_unclosed {body : List Char}
    (unclosed : ∀ before after, body ≠ before ++ '*' :: '/' :: after) :
    closeComment body = none := by
  cases found : closeComment body with
  | none => rfl
  | some parts =>
    obtain ⟨taken, after⟩ := parts
    obtain ⟨body', rfl, _⟩ := closeComment_first found
    have whole := closeComment_append found
    exact absurd (by simpa using whole.symm) (unclosed body' after)

theorem ofText?_eq_some_iff {text : String} {k : Keyword} :
    Keyword.ofText? text = some k ↔ text = k.text := by
  constructor
  · intro found
    have same := List.find?_some (show List.find? _ Keyword.all = some k from found)
    exact (beq_iff_eq.mp same).symm
  · intro spelled
    subst spelled
    cases k <;> decide

theorem lexical_word {taken rest : List Char} (longest : Longest Word taken rest) :
    Lexical (.token (wordKind taken)) taken rest := by
  unfold wordKind
  split
  next k found =>
    apply Lexical.keyword k longest
    rw [← ofText?_eq_some_iff.mp found, String.toList_ofList]
  next missing =>
    apply Lexical.identifier longest
    intro k spelled
    have found : Keyword.ofText? (String.ofList taken) = some k := by
      rw [ofText?_eq_some_iff, spelled, String.ofList_toList]
    rw [missing] at found
    cases found

theorem wordKind_keyword (k : Keyword) : wordKind k.text.toList = .keyword k := by
  have found : Keyword.ofText? (String.ofList k.text.toList) = some k := by
    rw [ofText?_eq_some_iff, String.ofList_toList]
  rw [wordKind, found]

theorem wordKind_identifier {taken : List Char} (plain : ∀ k : Keyword, taken ≠ k.text.toList) :
    wordKind taken = .identifier := by
  unfold wordKind
  split
  next k found =>
    have spelled := congrArg String.toList (ofText?_eq_some_iff.mp found)
    rw [String.toList_ofList] at spelled
    exact absurd spelled (plain k)
  next => rfl

private theorem not_mem_takeWhile (text : List Char) (c : Char) : c ∉ text.takeWhile (· ≠ c) := by
  intro member
  have different := List.mem_takeWhile_imp member
  simp at different

theorem slash_lexical (rest : List Char) : Lexical (slash rest).piece (slash rest).taken (slash rest).rest := by
  unfold slash
  split
  next more =>
    apply Lexical.lineComment (not_mem_takeWhile more '\n')
    cases after : more.dropWhile (· ≠ '\n') with
    | nil => exact .inl rfl
    | cons c tail =>
      have newline := head_dropWhile after
      exact .inr (by simpa using newline)
  next more =>
    split
    next comment after found =>
      obtain ⟨body, rfl, first⟩ := closeComment_first found
      exact .blockComment first
    next missing => exact .openComment (closeComment_none missing)
  next line block =>
    apply Lexical.slash
    · intro head
      obtain ⟨more, rfl⟩ := List.head?_eq_some_iff.mp head
      exact line more rfl
    · intro head
      obtain ⟨more, rfl⟩ := List.head?_eq_some_iff.mp head
      exact block more rfl

theorem quoted_lexical (rest : List Char) :
    Lexical (quoted rest).piece (quoted rest).taken (quoted rest).rest := by
  unfold quoted
  dsimp only
  split
  next quote after found =>
    have closes : quote = '"' := by simpa using head_dropWhile found
    subst closes
    exact .string (not_mem_takeWhile rest '"')
  next => exact .openString (not_mem_takeWhile rest '"')

/-- What a scan takes at a character follows the lexical grammar. -/
theorem munch_lexical (c : Char) (rest : List Char) :
    Lexical (munch (c :: rest) c rest).piece (munch (c :: rest) c rest).taken
      (munch (c :: rest) c rest).rest := by
  unfold munch
  split
  next symbol found => exact .punctuation (symbol?_eq_some_iff.mp found)
  next noSymbol =>
    split
    next alone extended found =>
      have spelled := comparison?_eq_some_iff.mp found
      split
      next more => exact .extended spelled
      next other =>
        apply Lexical.alone spelled
        intro head
        obtain ⟨more, rfl⟩ := List.head?_eq_some_iff.mp head
        exact other more rfl
    next noComparison =>
      split
      next => exact slash_lexical rest
      next noSlash =>
        split
        next => exact quoted_lexical rest
        next noQuote =>
          split
          next space => exact .space (isSpace_iff.mp space)
          next noSpace =>
            unfold word
            dsimp only
            split
            next start => exact lexical_word (longest_word start)
            next noWord =>
              split
              next digit => exact .number (longest_numeral digit)
              next noDigit =>
                exact .stray {
                  word := fun start => noWord (isWordStart_iff.mpr start)
                  digit := fun digit => noDigit (isDigit_iff.mpr digit)
                  punctuation := fun symbol spelled => by
                    rw [symbol?_eq_some_iff.mpr spelled] at noSymbol
                    cases noSymbol
                  comparison := fun alone extended spelled => by
                    rw [comparison?_eq_some_iff.mpr spelled] at noComparison
                    cases noComparison
                  slash := noSlash
                  quote := noQuote
                  space := fun space => noSpace (isSpace_iff.mpr space) }

theorem munch_slash (marked rest : List Char) : munch marked '/' rest = slash rest := rfl

theorem munch_quote (marked rest : List Char) : munch marked '"' rest = quoted rest := rfl

private theorem munch_plain {c : Char} (plain : isWordChar c = true) (rest : List Char) :
    munch (c :: rest) c rest = word (c :: rest) c rest := by
  have noSymbol : symbol? c = none := by
    cases found : symbol? c with
    | none => rfl
    | some symbol => cases symbol?_eq_some_iff.mp found <;> cases plain
  have noComparison : comparison? c = none := by
    cases found : comparison? c with
    | none => rfl
    | some pair =>
      obtain ⟨alone, extended⟩ := pair
      cases comparison?_eq_some_iff.mp found <;> cases plain
  have noSlash : c ≠ '/' := by
    intro same
    subst same
    cases plain
  have noQuote : c ≠ '"' := by
    intro same
    subst same
    cases plain
  have noSpace : isSpace c = false := by
    cases space : isSpace c with
    | false => rfl
    | true =>
      rcases isSpace_iff.mp space with rfl | rfl | rfl | rfl <;> cases plain
  simp [munch, noSymbol, noComparison, noSlash, noQuote, noSpace]

theorem munch_longest_word {taken rest : List Char} (longest : Longest Word taken rest) :
    ∃ c text, taken ++ rest = c :: text ∧ munch (c :: text) c text = ⟨.token (wordKind taken), taken, rest⟩ := by
  obtain ⟨first, more, rfl, start, _⟩ := longest.member
  rw [← isWordStart_iff] at start
  refine ⟨first, more ++ rest, rfl, ?_⟩
  obtain ⟨same, left⟩ := (longest_word start).unique longest
    (List.takeWhile_append_dropWhile (p := isWordChar) (l := first :: (more ++ rest)))
  rw [munch_plain (by simp [isWordChar, start]), word]
  simp only [start, if_true]
  rw [same, left]

theorem Numeral.exists_digit {text : List Char} (numeral : Numeral text) :
    ∃ first more, text = first :: more ∧ first.isDigit = true := by
  rcases numeral with ⟨some, all⟩ | ⟨whole, places, rfl, ⟨some, all⟩, _⟩
  · obtain ⟨first, more, rfl⟩ := List.exists_cons_of_ne_nil some
    exact ⟨first, more, rfl, isDigit_iff.mpr (all first (by simp))⟩
  · obtain ⟨first, more, rfl⟩ := List.exists_cons_of_ne_nil some
    exact ⟨first, _, rfl, isDigit_iff.mpr (all first (by simp))⟩

theorem munch_longest_numeral {taken rest : List Char} (longest : Longest Numeral taken rest) :
    ∃ c text, taken ++ rest = c :: text ∧ munch (c :: text) c text = ⟨.token .number, taken, rest⟩ := by
  obtain ⟨first, more, rfl, digit⟩ := longest.member.exists_digit
  refine ⟨first, more ++ rest, rfl, ?_⟩
  obtain ⟨same, left⟩ := (longest_numeral digit).unique longest
    (numeral_append (first :: (more ++ rest)))
  have noWord : isWordStart first = false := by
    cases start : isWordStart first with
    | false => rfl
    | true =>
      have range := isDigit_iff.mp digit
      rcases isWordStart_iff.mp start with lower | upper | rfl
      · exact absurd (Char.le_trans lower.1 range.2) (by decide)
      · exact absurd (Char.le_trans upper.1 range.2) (by decide)
      · cases digit
  rw [munch_plain (by simp [isWordChar, digit]), word]
  simp only [noWord, digit, if_true, Bool.false_eq_true, if_false]
  rw [same, left]

theorem quoted_closed {inner : List Char} (unquoted : '"' ∉ inner) (rest : List Char) :
    quoted (inner ++ '"' :: rest) = ⟨.token .string, '"' :: inner ++ ['"'], rest⟩ := by
  obtain ⟨taken, left⟩ := span_until unquoted (show ∀ c, ('"' :: rest).head? = some c → c = '"' by simp)
  rw [quoted, taken, left]

theorem quoted_open {inner : List Char} (unquoted : '"' ∉ inner) :
    quoted inner = ⟨.fault .unterminatedString, '"' :: inner, []⟩ := by
  obtain ⟨taken, left⟩ := span_until unquoted (show ∀ c, ([] : List Char).head? = some c → c = '"' by simp)
  rw [List.append_nil] at taken left
  rw [quoted, taken, left]

theorem munch_stray {c : Char} (stray : Stray c) (rest : List Char) :
    Lexeme.munch (c :: rest) c rest = ⟨.fault (.unrecognized c), [c], rest⟩ := by
  have noSymbol : symbol? c = none := by
    cases found : symbol? c with
    | none => rfl
    | some symbol => exact absurd (symbol?_eq_some_iff.mp found) (stray.punctuation symbol)
  have noComparison : comparison? c = none := by
    cases found : comparison? c with
    | none => rfl
    | some pair => exact absurd (comparison?_eq_some_iff.mp found) (stray.comparison pair.1 pair.2)
  have noSpace := mt isSpace_iff.mp stray.space
  have noWord := mt isWordStart_iff.mp stray.word
  have noDigit := mt isDigit_iff.mp stray.digit
  simp [Lexeme.munch, Lexeme.word, noSymbol, noComparison, stray.slash, stray.quote, noSpace, noWord, noDigit]

/-- The lexical grammar leaves no choice: a stretch it allows is the one a scan takes. -/
theorem Lexical.munch {piece : Piece} {taken rest : List Char} (lexical : Lexical piece taken rest) :
    ∃ c text, taken ++ rest = c :: text ∧ Lexeme.munch (c :: text) c text = ⟨piece, taken, rest⟩ := by
  cases lexical with
  | keyword k longest spelled =>
    have scanned := munch_longest_word longest
    rwa [spelled, wordKind_keyword, ← spelled] at scanned
  | identifier longest plain =>
    have scanned := munch_longest_word longest
    rwa [wordKind_identifier plain] at scanned
  | number longest => exact munch_longest_numeral longest
  | @string inner _ unquoted =>
    refine ⟨'"', inner ++ '"' :: rest, by simp, ?_⟩
    rw [munch_quote, quoted_closed unquoted]
  | @openString inner unquoted =>
    refine ⟨'"', inner, by simp, ?_⟩
    rw [munch_quote, quoted_open unquoted]
  | @punctuation c symbol _ spelled =>
    refine ⟨c, rest, rfl, ?_⟩
    simp [Lexeme.munch, symbol?_eq_some_iff.mpr spelled]
  | @alone c alone extended _ spelled apart =>
    refine ⟨c, rest, rfl, ?_⟩
    have other : ∀ more, rest = '=' :: more → False := by
      intro more same
      exact apart (by simp [same])
    cases spelled <;> simp [Lexeme.munch, symbol?, comparison?]
  | @extended c alone extended _ spelled =>
    refine ⟨c, '=' :: rest, rfl, ?_⟩
    cases spelled <;> rfl
  | slash line block =>
    refine ⟨'/', rest, rfl, ?_⟩
    rw [munch_slash]
    unfold Lexeme.slash
    split
    next => exact absurd rfl line
    next => exact absurd rfl block
    next => rfl
  | @lineComment body _ within ends =>
    refine ⟨'/', '/' :: body ++ rest, rfl, ?_⟩
    have stop : ∀ c, rest.head? = some c → c = '\n' := by
      intro c head
      rcases ends with rfl | newline
      · cases head
      · exact Option.some.inj (head.symm.trans newline)
    obtain ⟨comment, left⟩ := span_until within stop
    rw [munch_slash, List.cons_append, Lexeme.slash, comment, left]
  | @blockComment body _ first =>
    refine ⟨'/', '*' :: (body ++ '*' :: '/' :: rest), by simp, ?_⟩
    simp only [munch_slash, Lexeme.slash, closeComment_complete first]
  | @openComment body unclosed =>
    refine ⟨'/', '*' :: body, by simp, ?_⟩
    simp only [munch_slash, Lexeme.slash, closeComment_unclosed unclosed]
  | @space c _ space =>
    refine ⟨c, rest, rfl, ?_⟩
    rcases space with rfl | rfl | rfl | rfl <;> rfl
  | @stray c _ stray =>
    refine ⟨c, rest, rfl, ?_⟩
    exact munch_stray stray rest

end Lox.Proofs
