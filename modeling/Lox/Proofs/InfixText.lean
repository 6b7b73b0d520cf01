import Lox.Proofs.NumberText
import Lox.Proofs.Scanning
import Lox.Proofs.Stratified

/-! An expression as source text, scanned and parsed again. Its text scans without a problem to
tokens that spell its tree, so it is read back as the same tree exactly if the tree is stratified,
as every tree is that the parser returns. -/

namespace Lox.Proofs

/-- The values that a literal can spell: what is between quotes has no quote, and a number is a
finite single without a sign. -/
def Spelled : Value → Prop
  | .nil | .boolean _ => True
  | .string s => '"' ∉ s.toList
  | .number (.finite false units) => (Number.finite false units).IsSingle
  | .number _ => False

/-- Every literal of the tree has a value with the property. -/
def Literals (property : Value → Prop) : Expr → Prop
  | .literal value => property value
  | .unary _ operand _ => Literals property operand
  | .binary _ left right _ => Literals property left ∧ Literals property right
  | .grouping inner => Literals property inner

def Printable : Expr → Prop := Literals Spelled

/-- What comes after a phrase in the text of a tree. -/
def Apart (rest : List Char) : Prop := ∀ c, rest.head? = some c → c = ' ' ∨ c = ')'

theorem longest_apart {language : List Char → Prop} {taken rest : List Char} (member : language taken)
    (solid : ∀ text, language text → ' ' ∉ text ∧ ')' ∉ text) (apart : Apart rest) :
    Longest language taken rest := by
  refine ⟨member, fun more after split longer => ?_⟩
  cases more with
  | nil => rfl
  | cons c more =>
    obtain ⟨noSpace, noParen⟩ := solid _ longer
    rcases apart c (by rw [split]; rfl) with rfl | rfl
    · exact absurd (by simp) noSpace
    · exact absurd (by simp) noParen

theorem Word.solid {text : List Char} (word : Word text) : ' ' ∉ text ∧ ')' ∉ text := by
  obtain ⟨first, more, rfl, start, all⟩ := word
  have chars : ∀ c ∈ first :: more, WordStart c ∨ Digit c := by
    intro c member
    rcases List.mem_cons.mp member with rfl | later
    · exact .inl start
    · exact all c later
  exact ⟨fun space => absurd (chars _ space) (by decide), fun paren => absurd (chars _ paren) (by decide)⟩

theorem Numeral.solid {text : List Char} (numeral : Numeral text) : ' ' ∉ text ∧ ')' ∉ text :=
  ⟨fun space => absurd (numeral.chars _ space) (by decide),
    fun paren => absurd (numeral.chars _ paren) (by decide)⟩

theorem keyword_lexical (k : Keyword) {rest : List Char} (apart : Apart rest) :
    Lexical (.token (.keyword k)) k.text.toList rest := by
  have spelling : ∃ first more, k.text.toList = first :: more ∧ Lexeme.isWordStart first = true ∧
      more.all Lexeme.isWordChar = true := by
    cases k <;> exact ⟨_, _, rfl, rfl, rfl⟩
  obtain ⟨first, more, same, start, all⟩ := spelling
  apply Lexical.keyword k (longest_apart _ (fun _ word => word.solid) apart) rfl
  refine ⟨first, more, same, isWordStart_iff.mp start, fun c member => ?_⟩
  exact isWordChar_iff.mp (List.all_eq_true.mp all c member)

theorem literal_lexical {value : Value} (spelled : Spelled value) {rest : List Char} (apart : Apart rest) :
    ∃ kind, Lexical (.token kind) (Expr.literalText value).toList rest ∧
      ∀ line, Atom (.ofLexeme kind (Expr.literalText value).toList line) value := by
  match value with
  | .nil => exact ⟨_, keyword_lexical .nil apart, fun _ => .nil rfl⟩
  | .boolean true => exact ⟨_, keyword_lexical .true apart, fun _ => .true rfl⟩
  | .boolean false => exact ⟨_, keyword_lexical .false apart, fun _ => .false rfl⟩
  | .string s =>
    have quoted : (Expr.literalText (.string s)).toList = '"' :: s.toList ++ ['"'] := by
      simp [Expr.literalText]
    have literal : Token.literalOf .string ('"' :: s.toList ++ ['"']) = .string s := by
      rw [literalOf_quoted, String.ofList_toList]
    rw [quoted, ← literal]
    exact ⟨_, .string spelled, fun _ => .string rfl⟩
  | .number (.finite false units) =>
    obtain ⟨numeral, text, member, reads⟩ := text_reads spelled
    have same : (Expr.literalText (.number (.finite false units))).toList = numeral := by
      simp [Expr.literalText, Value.text, text]
    have literal : Token.literalOf .number numeral = .number (.finite false units) :=
      congrArg Value.number reads
    rw [same, ← literal]
    exact ⟨_, .number (longest_apart member (fun _ other => other.solid) apart), fun _ => .number rfl⟩

theorem operator_lexical (op : BinaryOp) {rest : List Char}
    (apart : rest.head? ≠ some '=' ∧ rest.head? ≠ some '/' ∧ rest.head? ≠ some '*') :
    ∃ kind, Lexical (.token kind) op.symbol.toList rest ∧
      ∀ line, Operator op.level (Token.ofLexeme kind op.symbol.toList line).kind op := by
  cases op with
  | equal => exact ⟨_, .extended .equal, fun _ => .equal⟩
  | notEqual => exact ⟨_, .extended .bang, fun _ => .notEqual⟩
  | less => exact ⟨_, .alone .less apart.1, fun _ => .less⟩
  | lessOrEqual => exact ⟨_, .extended .less, fun _ => .lessOrEqual⟩
  | greater => exact ⟨_, .alone .greater apart.1, fun _ => .greater⟩
  | greaterOrEqual => exact ⟨_, .extended .greater, fun _ => .greaterOrEqual⟩
  | plus => exact ⟨_, .punctuation .plus, fun _ => .plus⟩
  | minus => exact ⟨_, .punctuation .minus, fun _ => .minus⟩
  | multiply => exact ⟨_, .punctuation .star, fun _ => .multiply⟩
  | divide => exact ⟨_, .slash apart.2.1 apart.2.2, fun _ => .divide⟩

theorem sign_lexical (op : UnaryOp) {rest : List Char} (apart : rest.head? ≠ some '=') :
    ∃ kind, Lexical (.token kind) op.symbol.toList rest ∧
      ∀ line, Sign (Token.ofLexeme kind op.symbol.toList line).kind op := by
  cases op with
  | negate => exact ⟨_, .punctuation .minus, fun _ => .negate⟩
  | not => exact ⟨_, .alone .bang apart, fun _ => .not⟩

/-- A sign in front of an expression does not grow into another operator. -/
theorem infixText_head {expr : Expr} (printable : Printable expr) (rest : List Char) :
    (expr.infixText.toList ++ rest).head? ≠ some '=' := by
  induction expr generalizing rest with
  | literal value =>
    rw [Expr.infixText]
    match value with
    | .nil | .boolean true | .boolean false => simp [Expr.literalText, Value.text]
    | .string s => simp [Expr.literalText]
    | .number (.finite false units) =>
      obtain ⟨numeral, text, member, -⟩ := text_reads printable
      obtain ⟨first, more, rfl, digit⟩ := member.exists_digit
      simp only [Expr.literalText, Value.text, text, String.toList_ofList, List.cons_append, List.head?_cons]
      intro same
      cases Option.some.inj same
      cases digit
  | unary op operand line ih => cases op <;> simp [Expr.infixText, UnaryOp.symbol]
  | binary op left right line ihLeft _ =>
    have head := ihLeft printable.1 (' ' :: op.symbol.toList ++ ' ' :: right.infixText.toList ++ rest)
    simpa [Expr.infixText] using head
  | grouping inner ih => simp [Expr.infixText]

theorem infixText_scans {expr : Expr} (printable : Printable expr) {rest : List Char} (apart : Apart rest)
    (line : Int) :
    ∃ tokens after, Scans (expr.infixText.toList ++ rest) rest line tokens after ∧ Written expr tokens := by
  induction expr generalizing rest line with
  | literal value =>
    obtain ⟨kind, lexical, operand⟩ := literal_lexical printable apart
    exact ⟨_, _, scans_token lexical line, .literal (operand _)⟩
  | unary op operand _ ih =>
    obtain ⟨kind, lexical, symbol⟩ := sign_lexical op (@infixText_head operand printable rest)
    obtain ⟨tokens, after, scans, written⟩ := ih printable apart (line + newlines op.symbol.toList)
    rw [Expr.infixText, String.toList_append, List.append_assoc]
    exact ⟨_, after, (scans_token lexical line).append scans, .unary (symbol _) written⟩
  | binary op left right _ ihLeft ihRight =>
    have between (text : List Char) : Apart (' ' :: text) := fun c head => .inl (Option.some.inj head).symm
    obtain ⟨kind, lexical, symbol⟩ := @operator_lexical op (' ' :: (right.infixText.toList ++ rest)) (by simp)
    obtain ⟨before, middle, first, written⟩ := ihLeft printable.1
      (between (op.symbol.toList ++ ' ' :: (right.infixText.toList ++ rest))) line
    obtain ⟨later, after, second, written'⟩ := ihRight printable.2 apart (middle + newlines op.symbol.toList)
    have operation := (scans_space _ middle).append
      ((scans_token lexical middle).append ((scans_space _ _).append second))
    have text : (Expr.binary op left right 0).infixText.toList ++ rest =
        left.infixText.toList ++ ' ' :: (op.symbol.toList ++ ' ' :: (right.infixText.toList ++ rest)) := by
      simp [Expr.infixText]
    exact ⟨_, after, text ▸ first.append operation, .binary written (symbol _) written'⟩
  | grouping inner ih =>
    have closing : Apart (')' :: rest) := fun c head => .inr (Option.some.inj head).symm
    have opens := @scans_token (inner.infixText.toList ++ ')' :: rest) ['('] _ (.punctuation .leftParen) line
    obtain ⟨tokens, middle, scans, written⟩ := ih printable closing (line + newlines ['('])
    have closes := @scans_token rest [')'] _ (.punctuation .rightParen) middle
    have text : (Expr.grouping inner).infixText.toList ++ rest =
        '(' :: (inner.infixText.toList ++ ')' :: rest) := by
      simp [Expr.infixText]
    rw [text]
    exact ⟨_, _, opens.append (scans.append closes), .grouping rfl written rfl⟩

/-- A literal of a source is one that can be spelled, or a number too large for a single. -/
theorem Lexical.spelled {kind : Kind} {taken rest : List Char} {line : Int} {value : Value}
    (lexical : Lexical (.token kind) taken rest) (operand : Atom (.ofLexeme kind taken line) value) :
    Spelled value ∨ value = .number (.infinite false) := by
  cases operand with
  | number kind =>
    cases kind
    change Spelled (Token.literalOf .number taken) ∨ Token.literalOf .number taken = _
    rw [Token.literalOf]
    rcases ofDecimal_single false (Decimal.ofNumeral taken) with large | ⟨units, same, single⟩
    · right
      rw [large]
    · left
      rw [same]
      exact single
  | string kind =>
    cases kind
    cases lexical with
    | @string inner _ unquoted =>
      left
      change Spelled (Token.literalOf .string ('"' :: inner ++ ['"']))
      rw [literalOf_quoted, Spelled, String.toList_ofList]
      exact unquoted
  | true _ | false _ | nil _ => exact .inl trivial

theorem Written.literals {property : Value → Prop} {expr : Expr} {tokens : List Token}
    (written : Written expr tokens)
    (all : ∀ token ∈ tokens, ∀ value, Atom token value → property value) : Literals property expr := by
  induction written with
  | literal operand => exact all _ List.mem_cons_self _ operand
  | unary _ _ ih => exact ih fun token member => all token (List.mem_cons_of_mem _ member)
  | binary _ _ _ ihFirst ihSecond =>
    refine ⟨ihFirst fun token member => all token ?_, ihSecond fun token member => all token ?_⟩
    · exact List.mem_append_left _ member
    · exact List.mem_append_right _ (List.mem_cons_of_mem _ member)
  | grouping _ _ _ ih => exact ih fun token member => all token (by simp [member])

theorem Literals.and {first second both : Value → Prop} {expr : Expr}
    (combine : ∀ value, first value → second value → both value) (holds : Literals first expr)
    (also : Literals second expr) : Literals both expr := by
  induction expr with
  | literal value => exact combine value holds also
  | unary _ _ _ ih => exact ih holds also
  | binary _ _ _ _ ihLeft ihRight => exact ⟨ihLeft holds.1 also.1, ihRight holds.2 also.2⟩
  | grouping _ ih => exact ih holds also

/-- The source scans without a problem, and the parser reads all its tokens as the tree. -/
def ReadsAs (source : String) (expr : Expr) : Prop :=
  (scan source).problems = [] ∧ ∀ reporter, ∃ moved,
    Parser.attempt { tokens := (scan source).tokens } reporter = (.ok (some expr), moved, reporter) ∧
      moved.isAtEnd = .ok true

theorem Derives.readsAs {source : String} {tokens : List Token} {after : Int} {expr : Expr}
    (scanned : scan source = ⟨tokens ++ [.eof after], [], after⟩) (phrase : Derives .expression tokens expr) :
    ReadsAs source expr := by
  unfold ReadsAs
  rw [scanned]
  refine ⟨rfl, fun reporter => ⟨⟨tokens ++ [.eof after], tokens.length⟩, ?_, ?_⟩⟩
  · have here : (tokens ++ [Token.eof after])[tokens.length]? = some (.eof after) := by simp
    have closed : (Token.eof after).kind ∉ binaryKinds := show Kind.eof ∉ binaryKinds by decide
    exact Derives.attempt_tree (by simpa using phrase) here closed reporter
  · simp [Parser.isAtEnd, Parser.current, Token.eof, Except.map]

theorem infixText_readsAs {expr : Expr} (printable : Printable expr) :
    ∃ found, ReadsAs expr.infixText found ∧ (eraseLines found = eraseLines expr ↔ Stratified expr) := by
  obtain ⟨tokens, after, scans, written⟩ := @infixText_scans expr printable [] (by simp [Apart]) 1
  obtain ⟨found, phrase⟩ := written.exists_derives
  rw [List.append_nil] at scans
  have scanned := scans.scan_eq
  rw [String.ofList_toList] at scanned
  exact ⟨found, phrase.readsAs scanned, written.same_iff phrase⟩

theorem attempt_literals {source : String} {reporter : Reporter} {expr : Expr}
    (gives : (Parser.attempt { tokens := (scan source).tokens } reporter).1 = .ok (some expr)) :
    Literals (fun value => Spelled value ∨ value = .number (.infinite false)) expr := by
  obtain ⟨read, rest, split, phrase⟩ := attempt_derives gives
  apply phrase.written.literals
  intro token member value operand
  have scanned : token ∈ (Scan.locate 1 (segments source.toList)).tokens := by
    change token ∈ (scan source).tokens
    rw [show (scan source).tokens = read ++ rest from split]
    exact List.mem_append_left rest member
  rcases (cuts_segments source.toList).mem_tokens scanned with last | ⟨kind, taken, after, line, lexical, rfl⟩
  · cases operand with
    | number kind | string kind | true kind | false kind | nil kind =>
      rw [kind] at last
      cases last
  · exact lexical.spelled operand

/-- Writing a tree as source text and reading it back gives the same tree, but for its lines,
exactly if the tree is stratified. The parser returns no other trees, so what it read from any
source is read again from the tree's own text. -/
theorem infixText_inverse_iff_stratified :
    (∀ expr, Printable expr →
      ∃ found, ReadsAs expr.infixText found ∧ (eraseLines found = eraseLines expr ↔ Stratified expr)) ∧
    (∀ (parser : Parser) (reporter : Reporter) (expr : Expr),
      (parser.attempt reporter).1 = .ok (some expr) → Stratified expr) ∧
    (∀ (source : String) (reporter : Reporter) (expr : Expr),
      (Parser.attempt { tokens := (scan source).tokens } reporter).1 = .ok (some expr) →
      Literals (fun value => ∀ negative, value ≠ .number (.infinite negative)) expr →
      ∃ again, ReadsAs expr.infixText again ∧ eraseLines again = eraseLines expr) := by
  have stratified {parser : Parser} {reporter : Reporter} {expr : Expr}
      (gives : (parser.attempt reporter).1 = .ok (some expr)) : Stratified expr := by
    obtain ⟨_, _, _, phrase⟩ := attempt_derives gives
    exact phrase.stratified.1
  refine ⟨fun _ => infixText_readsAs, fun _ _ _ => stratified, fun source reporter expr gives finite => ?_⟩
  have printable : Printable expr := by
    refine (attempt_literals gives).and (fun value spelled small => ?_) finite
    exact spelled.resolve_right (small false)
  obtain ⟨again, reads, same⟩ := infixText_readsAs printable
  exact ⟨again, reads, same.mpr (stratified gives)⟩

/-- The tree of `("a" + 1) * nil` without its parentheses. -/
def bareProduct : Expr :=
  .binary .multiply
    (.binary .plus (.literal (.string "a")) (.literal (.number (.finite false Number.one))) 1)
    (.literal .nil) 1

theorem infixText_bareProduct :
    (Printable bareProduct ∧ ∃ found, ReadsAs bareProduct.infixText found ∧
      eraseLines found ≠ eraseLines bareProduct) ∧
    ∃ expr, (Parser.attempt { tokens := (scan "!!nil\n== -(\"a\");").tokens } {}).1 = .ok (some expr) ∧
      Stratified expr ∧ ∃ again, ReadsAs expr.infixText again ∧ eraseLines again = eraseLines expr := by
  obtain ⟨prints, returns, rereads⟩ := infixText_inverse_iff_stratified
  constructor
  · have single : (Number.finite false Number.one).IsSingle := by
      unfold Number.one
      apply isSingle_power <;> decide
    have printable : Printable bareProduct := ⟨⟨by simp [Literals, Spelled], single⟩, trivial⟩
    obtain ⟨found, reads, same⟩ := prints bareProduct printable
    exact ⟨printable, found, reads, fun equal => absurd (same.mp equal) (by decide)⟩
  · have gives : (Parser.attempt { tokens := (scan "!!nil\n== -(\"a\");").tokens } {}).1 =
        .ok (some (.binary .equal (.unary .not (.unary .not (.literal .nil) 1) 1)
          (.unary .negate (.grouping (.literal (.string "a"))) 2) 2)) := by
      decide +kernel
    exact ⟨_, gives, returns _ _ _ gives, rereads _ _ _ gives (by simp [Literals])⟩

end Lox.Proofs
