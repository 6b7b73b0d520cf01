import Lox.Proofs.InfixText

/-! Tokens are known by their lexemes. What a lexeme is, and what it stands for, does not depend on the
text around it as long as a space sets it apart; so the lexemes of a scan, written with single spaces
between them, scan to the same tokens again, whatever the source was that they came from. -/

namespace Lox.Proofs

/-- What there is to a token besides its line. -/
def content (token : Token) : Kind × String × Value := (token.kind, token.lexeme, token.literal)

/-- The tokens of a source before the end of input. -/
def wordsOf (source : String) : List Token := (scan source).tokens.filter (·.kind ≠ .eof)

/-- The lexemes of a source with single spaces between them. -/
def respelled (source : String) : String := " ".intercalate ((wordsOf source).map Token.lexeme)

/-- A token that some source has. -/
def Scannable (token : Token) : Prop :=
  ∃ kind taken rest line, Lexical (.token kind) taken rest ∧ token = .ofLexeme kind taken line

theorem wordsOf_scannable {source : String} : ∀ token ∈ wordsOf source, Scannable token := by
  intro token member
  obtain ⟨scanned, other⟩ := List.mem_filter.mp member
  rcases (cuts_segments source.toList).mem_tokens scanned with last | found
  · exact absurd last (of_decide_eq_true other)
  · exact found

theorem Apart.head?_ne {rest : List Char} (apart : Apart rest) {c : Char} (space : c ≠ ' ') (paren : c ≠ ')') :
    rest.head? ≠ some c := by
  intro head
  rcases apart c head with same | same
  · exact space same
  · exact paren same

/-- A token remains what it is wherever its lexeme is set apart. -/
theorem Lexical.set_apart {kind : Kind} {taken rest other : List Char} (lexical : Lexical (.token kind) taken rest)
    (apart : Apart other) : Lexical (.token kind) taken other := by
  cases lexical with
  | keyword k longest spelled =>
    exact .keyword k (longest_apart longest.member (fun _ word => word.solid) apart) spelled
  | identifier longest plain =>
    exact .identifier (longest_apart longest.member (fun _ word => word.solid) apart) plain
  | number longest => exact .number (longest_apart longest.member (fun _ numeral => numeral.solid) apart)
  | string unquoted => exact .string unquoted
  | punctuation spelled => exact .punctuation spelled
  | alone spelled _ => exact .alone spelled (apart.head?_ne (by decide) (by decide))
  | extended spelled => exact .extended spelled
  | slash _ _ => exact .slash (apart.head?_ne (by decide) (by decide)) (apart.head?_ne (by decide) (by decide))

theorem Scannable.scans {token : Token} (scannable : Scannable token) {rest : List Char} (apart : Apart rest)
    (line : Int) :
    ∃ again after, Scans (token.lexeme.toList ++ rest) rest line [again] after ∧ content again = content token := by
  obtain ⟨kind, taken, beyond, place, lexical, rfl⟩ := scannable
  have text : (Token.ofLexeme kind taken place).lexeme.toList = taken := String.toList_ofList
  rw [text]
  exact ⟨_, _, scans_token (lexical.set_apart apart) line, rfl⟩

/-- The lines may differ: a lexeme that goes over a line end moves all that comes after it. -/
theorem intercalate_scans {tokens : List Token} (scannable : ∀ token ∈ tokens, Scannable token) (line : Int) :
    ∃ again after, Scans (" ".intercalate (tokens.map Token.lexeme)).toList [] line again after ∧
      again.map content = tokens.map content := by
  induction tokens generalizing line with
  | nil => exact ⟨[], line, ⟨[], .done, fun _ => rfl⟩, rfl⟩
  | cons token later ih =>
    rw [List.forall_mem_cons] at scannable
    cases later with
    | nil =>
      obtain ⟨again, after, scans, same⟩ := scannable.1.scans (show Apart [] by simp [Apart]) line
      rw [List.append_nil] at scans
      refine ⟨[again], after, ?_, by rw [List.map_singleton, same]; rfl⟩
      rwa [List.map_singleton, String.intercalate_singleton]
    | cons next later =>
      have text : (" ".intercalate ((token :: next :: later).map Token.lexeme)).toList =
          token.lexeme.toList ++ ' ' :: (" ".intercalate ((next :: later).map Token.lexeme)).toList := by
        rw [List.map_cons, List.map_cons, String.intercalate_cons_cons, String.toList_append, String.toList_append,
          List.append_assoc]
        rfl
      have spaced (rest : List Char) : Apart (' ' :: rest) := fun c head => .inl (Option.some.inj head).symm
      obtain ⟨first, middle, scans, same⟩ := scannable.1.scans (spaced _) line
      obtain ⟨again, after, further, others⟩ := ih scannable.2 middle
      rw [text]
      refine ⟨first :: again, after, scans.append ((scans_space _ middle).append further), ?_⟩
      exact congrArg₂ List.cons same others

/-- The lexemes of any source, faulty or not, scan without a problem to the tokens they came from. -/
theorem scan_respelled (source : String) :
    (scan (respelled source)).problems = [] ∧
      (scan (respelled source)).tokens.map content = (wordsOf source).map content ++ [(.eof, "", .nil)] := by
  obtain ⟨again, after, scans, same⟩ := intercalate_scans (@wordsOf_scannable source) 1
  have scanned := scans.scan_eq
  rw [String.ofList_toList] at scanned
  rw [respelled, scanned]
  refine ⟨rfl, ?_⟩
  rw [List.map_append, same]
  rfl

end Lox.Proofs
