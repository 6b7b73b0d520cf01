import Lox.Proofs.Scanning

/-! Scanning character by character. A cursor sees the next character and the one after it, and where there is none
it sees U+0000, which a text may also have. A walk looks at what it sees before it goes on, and is never misled: each
step ends where it ends with the whole text in view, and no step takes a character that is not there. -/

namespace Lox.Proofs

/-- Takes the next character, and counts it if it is a line end. There may be none to take. -/
def pass (cursor : Cursor) : Option Cursor :=
  match cursor.advance with
  | (none, _) => none
  | (some c, moved) => some (if c = '\n' then { moved with line := moved.line + 1 } else moved)

theorem pass_closer {cursor moved : Cursor} (passes : pass cursor = some moved) :
    moved.source.length - moved.current < cursor.source.length - cursor.current := by
  unfold pass Cursor.advance at passes
  cases here : cursor.source[cursor.current]? with
  | none => simp [here] at passes
  | some c =>
    have inside := (List.getElem?_eq_some_iff.mp here).1
    simp only [here, Option.some.injEq] at passes
    subst passes
    split <;> (dsimp only; omega)

/-- Goes on to the next `stop`, or to the end. -/
def passUntil (stop : Char) (cursor : Cursor) : Option Cursor :=
  if cursor.peek ≠ stop ∧ cursor.isAtEnd = false then
    match _passes : pass cursor with
    | some moved => passUntil stop moved
    | none => none
  else some cursor
termination_by cursor.source.length - cursor.current
decreasing_by exact pass_closer _passes

/-- Goes on past the end of a comment, and tells whether there is one. -/
def passComment (cursor : Cursor) : Option (Bool × Cursor) :=
  if cursor.isAtEnd = false then
    if cursor.peek = '*' ∧ cursor.peekNext = '/' then some (true, { cursor with current := cursor.current + 2 })
    else
      match _passes : pass cursor with
      | some moved => passComment moved
      | none => none
  else some (false, cursor)
termination_by cursor.source.length - cursor.current
decreasing_by exact pass_closer _passes

/-- Ends a step with a token from the mark to the cursor. -/
def produce (kind : Kind) (cursor : Cursor) : Cursor.Step × Cursor :=
  (.done, cursor.addToken kind (Token.literalOf kind cursor.lexeme))

def walkComparison (alone extended : Symbol) (cursor : Cursor) : Cursor.Step × Cursor :=
  match cursor.accept '=' with
  | (true, further) => produce (.symbol extended) further
  | (false, _) => produce (.symbol alone) cursor

def walkSlash (line : Int) (cursor : Cursor) : Cursor.Step × Cursor :=
  match cursor.accept '/' with
  | (true, opened) =>
    match passUntil '\n' opened with
    | some last => (.done, last)
    | none => (.outOfText, opened)
  | (false, _) =>
    match cursor.accept '*' with
    | (true, opened) =>
      match passComment opened with
      | some (true, closed) => (.done, closed)
      | some (false, last) => (.fault (ScanFault.unterminatedComment.problem line), last)
      | none => (.outOfText, opened)
    | (false, _) => produce (.symbol .slash) cursor

def walkQuoted (line : Int) (cursor : Cursor) : Cursor.Step × Cursor :=
  match passUntil '"' cursor with
  | some last =>
    if last.isAtEnd then (.fault (ScanFault.unterminatedString.problem line), last)
    else
      match last.advance with
      | (some _, closed) => produce .string closed
      | (none, _) => (.outOfText, last)
  | none => (.outOfText, cursor)

/-- A word or numeral is found from the mark on, wherever the cursor is. -/
def walkWord (c : Char) (cursor : Cursor) : Cursor.Step × Cursor :=
  let marked := cursor.source.drop cursor.start
  if marked.head?.any Lexeme.isWordStart then
    let word := marked.takeWhile Lexeme.isWordChar
    produce (Lexeme.wordKind word) { cursor with current := cursor.start + word.length }
  else if marked.head?.any Char.isDigit then
    produce .number { cursor with current := cursor.start + (Lexeme.numeral marked).1.length }
  else (.fault ((ScanFault.unrecognized c).problem cursor.line), cursor)

/-- One step of a scan by hand. Words and numerals apart, it has no more in view than the next two characters. It
is out of text if at any point it takes a character where there is none. -/
def walk (cursor : Cursor) : Cursor.Step × Cursor :=
  match cursor.advance with
  | (none, _) => (.outOfText, cursor)
  | (some c, moved) =>
    match Lexeme.symbol? c, Lexeme.comparison? c with
    | some symbol, _ => produce (.symbol symbol) moved
    | none, some (alone, extended) => walkComparison alone extended moved
    | none, none =>
      if c = '/' then walkSlash cursor.line moved
      else if c = '"' then walkQuoted cursor.line moved
      else if c = '\n' then (.done, { moved with line := moved.line + 1 })
      else if Lexeme.isSpace c then (.done, moved)
      else walkWord c moved

/-- The cursor after a text that lies ahead of it, with the lines of the text counted. -/
def passed (cursor : Cursor) (taken : List Char) : Cursor :=
  { cursor with current := cursor.current + taken.length, line := cursor.line + newlines taken }

section
variable {cursor : Cursor} {c : Char} {taken rest : List Char}

theorem passed_nil (cursor : Cursor) : passed cursor [] = cursor := by
  simp [passed, newlines]

theorem passed_append (cursor : Cursor) (first second : List Char) :
    passed (passed cursor first) second = passed cursor (first ++ second) := by
  simp [passed, newlines_append, Nat.add_assoc, Int.add_assoc]

theorem passed_plain (cursor : Cursor) (plain : '\n' ∉ taken) :
    passed cursor taken = { cursor with current := cursor.current + taken.length } := by
  have none : newlines taken = 0 := List.count_eq_zero.mpr plain
  simp [passed, none]

theorem passed_one (cursor : Cursor) (plain : c ≠ '\n') :
    { cursor with current := cursor.current + 1 } = passed cursor [c] :=
  (passed_plain cursor (mt List.mem_singleton.mp plain.symm)).symm

theorem ahead_passed (ahead : cursor.ahead = taken ++ rest) : (passed cursor taken).ahead = rest := by
  have whole : cursor.source.drop cursor.current = taken ++ rest := ahead
  rw [Cursor.ahead, passed, ← List.drop_drop, whole, List.drop_left]

theorem isAtEnd_iff : cursor.isAtEnd = true ↔ cursor.ahead = [] := by
  rw [Cursor.isAtEnd, Cursor.ahead, decide_eq_true_eq, List.drop_eq_nil_iff]

theorem isAtEnd_of_ahead (ahead : cursor.ahead = c :: rest) : cursor.isAtEnd = false := by
  rw [Bool.eq_false_iff, Ne, isAtEnd_iff, ahead]
  exact List.cons_ne_nil c rest

/-- What is seen comes next, or it is U+0000 and nothing comes. -/
theorem peek_eq_iff : cursor.peek = c ↔ cursor.ahead.head? = some c ∨ c = '\x00' ∧ cursor.isAtEnd = true := by
  rw [isAtEnd_iff, ← List.head?_eq_none_iff, Cursor.peek, Cursor.ahead, List.head?_drop]
  cases cursor.source[cursor.current]? with
  | none => simpa using eq_comm
  | some next => simp

theorem getElem?_of_ahead (ahead : cursor.ahead = c :: rest) (next : Nat) :
    cursor.source[cursor.current + next]? = (c :: rest)[next]? := by
  rw [← ahead, Cursor.ahead, List.getElem?_drop]

theorem peek_of_ahead (ahead : cursor.ahead = c :: rest) : cursor.peek = c :=
  peek_eq_iff.mpr (.inl (List.head?_eq_some_iff.mpr ⟨rest, ahead⟩))

theorem peekNext_of_ahead (ahead : cursor.ahead = c :: rest) : cursor.peekNext = rest.head?.getD '\x00' := by
  rw [Cursor.peekNext, getElem?_of_ahead ahead 1, List.getElem?_cons_succ, List.head?_eq_getElem?]

theorem advance_ahead (ahead : cursor.ahead = c :: rest) :
    cursor.advance = (some c, { cursor with current := cursor.current + 1 }) := by
  have here : cursor.source[cursor.current]? = some c := getElem?_of_ahead ahead 0
  rw [Cursor.advance, here]

theorem advance_end (ahead : cursor.ahead = []) : cursor.advance = (none, cursor) := by
  have past : cursor.source[cursor.current]? = none := List.getElem?_eq_none_iff.mpr (List.drop_eq_nil_iff.mp ahead)
  rw [Cursor.advance, past]

theorem pass_of_ahead (ahead : cursor.ahead = c :: rest) : pass cursor = some (passed cursor [c]) := by
  rw [pass, advance_ahead ahead]
  by_cases line : c = '\n'
  · subst line
    rfl
  · rw [← passed_one cursor line]
    simp [line]

theorem passUntil_pass {stop : Char} {moved : Cursor} (more : cursor.peek ≠ stop ∧ cursor.isAtEnd = false)
    (passes : pass cursor = some moved) : passUntil stop cursor = passUntil stop moved := by
  rw [passUntil, if_pos more]
  split
  next found => cases passes.symm.trans found; rfl
  next found => cases passes.symm.trans found

theorem passComment_pass {moved : Cursor} (inside : cursor.isAtEnd = false)
    (goes : ¬ (cursor.peek = '*' ∧ cursor.peekNext = '/')) (passes : pass cursor = some moved) :
    passComment cursor = passComment moved := by
  rw [passComment, if_pos inside, if_neg goes]
  split
  next found => cases passes.symm.trans found; rfl
  next found => cases passes.symm.trans found

theorem passUntil_eq (stop : Char) (cursor : Cursor) :
    passUntil stop cursor = some (passed cursor (cursor.ahead.takeWhile (· ≠ stop))) := by
  generalize text : cursor.ahead = ahead
  induction ahead generalizing cursor with
  | nil => rw [passUntil, if_neg (by simp [isAtEnd_iff.mpr text]), List.takeWhile_nil, passed_nil]
  | cons c rest ih =>
    by_cases stops : c = stop
    · have ends : ¬ (cursor.peek ≠ stop ∧ cursor.isAtEnd = false) := fun more =>
        more.1 ((peek_of_ahead text).trans stops)
      rw [passUntil, if_neg ends, List.takeWhile_cons_of_neg (by simpa using stops), passed_nil]
    · have more : cursor.peek ≠ stop ∧ cursor.isAtEnd = false :=
        ⟨by rwa [peek_of_ahead text], isAtEnd_of_ahead text⟩
      have next := @ahead_passed cursor [c] rest text
      rw [passUntil_pass more (pass_of_ahead text), ih _ next, passed_append,
        List.takeWhile_cons_of_pos (by simpa using stops)]
      rfl

/-- U+0000 past the end is not taken for the end of a comment. -/
theorem passComment_eq (cursor : Cursor) : passComment cursor =
    match Lexeme.closeComment cursor.ahead with
    | some (taken, _) => some (true, passed cursor taken)
    | none => some (false, passed cursor cursor.ahead) := by
  generalize text : cursor.ahead = ahead
  induction ahead using Lexeme.closeComment.induct generalizing cursor with
  | case1 =>
    rw [passComment, if_neg (by simp [isAtEnd_iff.mpr text]), Lexeme.closeComment, passed_nil]
  | case2 rest =>
    have closes : cursor.peek = '*' ∧ cursor.peekNext = '/' := by
      rw [peek_of_ahead text, peekNext_of_ahead text]
      exact ⟨rfl, rfl⟩
    have plain := @passed_plain ['*', '/'] cursor (by decide)
    rw [passComment, if_pos (isAtEnd_of_ahead text), if_pos closes, Lexeme.closeComment]
    exact congrArg (fun closed => some (true, closed)) plain.symm
  | case3 c rest other ih =>
    have goes : ¬ (cursor.peek = '*' ∧ cursor.peekNext = '/') := by
      rw [peek_of_ahead text, peekNext_of_ahead text]
      rintro ⟨rfl, slash⟩
      cases rest with
      | nil => cases slash
      | cons next rest => exact other rest rfl (congrArg (· :: rest) slash)
    have next := @ahead_passed cursor [c] rest text
    rw [passComment_pass (isAtEnd_of_ahead text) goes (pass_of_ahead text), ih _ next,
      Lexeme.closeComment.eq_3 _ _ other]
    cases Lexeme.closeComment rest with
    | none => simp [passed_append]
    | some found => simp [passed_append]

theorem accept_next (ahead : cursor.ahead = c :: rest) (plain : c ≠ '\n') :
    cursor.accept c = (true, passed cursor [c]) := by
  rw [Cursor.accept, if_pos (peek_of_ahead ahead), passed_one cursor plain]

theorem accept_other (visible : c ≠ '\x00') (other : cursor.ahead.head? ≠ some c) :
    cursor.accept c = (false, cursor) := by
  rw [Cursor.accept, if_neg]
  intro seen
  rcases peek_eq_iff.mp seen with next | ⟨zero, -⟩
  · exact other next
  · exact visible zero

/-- How a step ends that finds the piece and leaves the cursor there. -/
def finish (line : Int) (piece : Piece) (cursor : Cursor) : Cursor.Step × Cursor :=
  match piece with
  | .token kind => produce kind cursor
  | .blank => (.done, cursor)
  | .fault cause => (.fault (cause.problem line), cursor)

theorem scanToken_at {stretch : Stretch} {place : Nat} (ahead : cursor.ahead = c :: rest)
    (munch : Lexeme.munch (cursor.source.drop cursor.start) c rest = stretch)
    (ends : cursor.source.length = place + stretch.rest.length) :
    cursor.scanToken = finish cursor.line stretch.piece
      { cursor with current := place, line := cursor.line + newlines stretch.taken } := by
  have place : cursor.source.length - stretch.rest.length = place := by omega
  unfold Cursor.scanToken
  rw [ahead]
  simp only [munch, place]
  cases stretch.piece <;> rfl

theorem scanToken_of_munch {stretch : Stretch} (ahead : cursor.ahead = c :: rest)
    (munch : Lexeme.munch (cursor.source.drop cursor.start) c rest = stretch)
    (whole : stretch.taken ++ stretch.rest = c :: rest) :
    cursor.scanToken = finish cursor.line stretch.piece (passed cursor stretch.taken) := by
  have inside := @inside_of_ahead cursor [c] rest ahead (List.cons_ne_nil c [])
  have size := congrArg List.length (ahead.trans whole.symm)
  simp only [Cursor.ahead, List.length_drop, List.length_append] at size
  exact scanToken_at ahead munch (by omega)

/-- A stretch from the mark without line ends ends the step after itself, wherever the cursor was. -/
theorem scanToken_of_marked {stretch : Stretch} (ahead : cursor.ahead = c :: rest)
    (munch : Lexeme.munch (cursor.source.drop cursor.start) c rest = stretch)
    (whole : stretch.taken ++ stretch.rest = cursor.source.drop cursor.start) (some : cursor.source.drop cursor.start ≠ [])
    (plain : '\n' ∉ stretch.taken) : cursor.scanToken = finish cursor.line stretch.piece
      { cursor with current := cursor.start + stretch.taken.length } := by
  have inside : cursor.start < cursor.source.length := by
    rw [Ne, List.drop_eq_nil_iff] at some
    omega
  have size := congrArg List.length whole
  simp only [List.length_drop, List.length_append] at size
  have none : newlines stretch.taken = 0 := List.count_eq_zero.mpr plain
  rw [@scanToken_at _ _ _ _ (cursor.start + stretch.taken.length) ahead munch (by omega), none]
  simp

theorem walkComparison_eq {alone extended : Symbol} (ahead : cursor.ahead = c :: rest)
    (symbol : Lexeme.symbol? c = none) (comparison : Lexeme.comparison? c = some (alone, extended)) :
    cursor.scanToken = walkComparison alone extended { cursor with current := cursor.current + 1 } := by
  have plain : c ≠ '\n' := by
    rintro rfl
    cases comparison
  have next : (passed cursor [c]).ahead = rest := @ahead_passed cursor [c] rest ahead
  rw [passed_one cursor plain, walkComparison]
  by_cases equal : rest.head? = some '='
  · obtain ⟨more, rfl⟩ := List.head?_eq_some_iff.mp equal
    have munch : Lexeme.munch (cursor.source.drop cursor.start) c ('=' :: more) =
        ⟨.token (.symbol extended), [c, '='], more⟩ := by
      rw [Lexeme.munch, symbol, comparison]
      rfl
    rw [scanToken_of_munch ahead munch rfl, accept_next next (by decide), passed_append]
    rfl
  · have munch : Lexeme.munch (cursor.source.drop cursor.start) c rest = ⟨.token (.symbol alone), [c], rest⟩ := by
      unfold Lexeme.munch
      rw [symbol, comparison]
      dsimp only
      split
      · exact absurd rfl equal
      · rfl
    rw [scanToken_of_munch ahead munch rfl, accept_other (by decide) (by rwa [next])]
    rfl

theorem walkSlash_eq (ahead : cursor.ahead = '/' :: rest) : walkSlash cursor.line (passed cursor ['/']) =
    finish cursor.line (Lexeme.slash rest).piece (passed cursor (Lexeme.slash rest).taken) := by
  have next : (passed cursor ['/']).ahead = rest := @ahead_passed cursor ['/'] rest ahead
  by_cases line : rest.head? = some '/'
  · obtain ⟨more, rfl⟩ := List.head?_eq_some_iff.mp line
    have body : (passed (passed cursor ['/']) ['/']).ahead = more := ahead_passed next
    rw [walkSlash, accept_next next (by decide)]
    dsimp only
    rw [passUntil_eq, body, passed_append, passed_append]
    rfl
  · by_cases block : rest.head? = some '*'
    · obtain ⟨more, rfl⟩ := List.head?_eq_some_iff.mp block
      have body : (passed (passed cursor ['/']) ['*']).ahead = more := ahead_passed next
      rw [walkSlash, accept_other (by decide) (by rwa [next]), accept_next next (by decide)]
      dsimp only
      rw [passComment_eq, body]
      cases closed : Lexeme.closeComment more with
      | none => simp [Lexeme.slash, closed, finish, passed_append]
      | some found => simp [Lexeme.slash, closed, finish, passed_append]
    · have alone : Lexeme.slash rest = ⟨.token (.symbol .slash), ['/'], rest⟩ := by
        rw [Lexeme.slash.eq_3]
        · rintro more rfl
          exact line rfl
        · rintro more rfl
          exact block rfl
      rw [walkSlash, accept_other (by decide) (by rwa [next]), accept_other (by decide) (by rwa [next]), alone]
      rfl

theorem walkQuoted_eq (ahead : cursor.ahead = '"' :: rest) : walkQuoted cursor.line (passed cursor ['"']) =
    finish cursor.line (Lexeme.quoted rest).piece (passed cursor (Lexeme.quoted rest).taken) := by
  have next : (passed cursor ['"']).ahead = rest := @ahead_passed cursor ['"'] rest ahead
  have parts := List.takeWhile_append_dropWhile (p := (· ≠ '"')) (l := rest)
  have last : (passed (passed cursor ['"']) (rest.takeWhile (· ≠ '"'))).ahead = rest.dropWhile (· ≠ '"') :=
    ahead_passed (next.trans parts.symm)
  rw [walkQuoted, passUntil_eq, next, Lexeme.quoted]
  cases after : rest.dropWhile (· ≠ '"') with
  | nil =>
    rw [after] at last
    dsimp only
    rw [if_pos (isAtEnd_iff.mpr last), passed_append]
    rfl
  | cons quote more =>
    rw [after] at last
    have quotes : quote ≠ '\n' := by
      have stops := head_dropWhile after
      rintro rfl
      cases stops
    dsimp only
    rw [isAtEnd_of_ahead last, advance_ahead last, passed_one _ quotes, passed_append, passed_append]
    rfl

theorem walkWord_eq (ahead : cursor.ahead = c :: rest) (plain : c ≠ '\n')
    (munch : Lexeme.munch (cursor.source.drop cursor.start) c rest =
      Lexeme.word (cursor.source.drop cursor.start) c rest) :
    cursor.scanToken = walkWord c { cursor with current := cursor.current + 1 } := by
  have stray (found : Lexeme.word (cursor.source.drop cursor.start) c rest = ⟨.fault (.unrecognized c), [c], rest⟩) :
      cursor.scanToken = (.fault ((ScanFault.unrecognized c).problem cursor.line),
        { cursor with current := cursor.current + 1 }) := by
    rw [scanToken_of_munch ahead (munch.trans found) rfl, passed_one cursor plain]
    rfl
  cases marked : cursor.source.drop cursor.start with
  | nil =>
    rw [stray (by rw [marked, Lexeme.word])]
    simp [walkWord, marked]
  | cons first more =>
    have some : cursor.source.drop cursor.start ≠ [] := marked ▸ List.cons_ne_nil first more
    by_cases word : Lexeme.isWordStart first = true
    · rw [marked, Lexeme.word, if_pos word] at munch
      rw [← marked] at munch
      have solid : '\n' ∉ (cursor.source.drop cursor.start).takeWhile Lexeme.isWordChar := fun inside =>
        absurd (List.mem_takeWhile_imp inside) (by decide)
      rw [scanToken_of_marked ahead munch List.takeWhile_append_dropWhile some solid]
      simp [walkWord, marked, word, finish]
    · by_cases digit : first.isDigit = true
      · rw [marked, Lexeme.word, if_neg word, if_pos digit] at munch
        have numeral := (@longest_numeral first more digit).member
        have solid : '\n' ∉ (Lexeme.numeral (first :: more)).1 := fun inside =>
          absurd (numeral.chars _ inside) (by decide)
        rw [← marked] at munch solid
        rw [scanToken_of_marked ahead munch (Lexeme.numeral_append _) some solid]
        simp [walkWord, marked, word, digit, finish]
      · rw [stray (by rw [marked, Lexeme.word, if_neg word, if_neg digit])]
        simp [walkWord, marked, word, digit]

end

theorem scanToken_eq_walk (cursor : Cursor) : cursor.scanToken = walk cursor := by
  cases ahead : cursor.ahead with
  | nil => rw [Cursor.scanToken, ahead, walk, advance_end ahead]
  | cons c rest =>
    rw [walk, advance_ahead ahead]
    dsimp only
    cases symbol : Lexeme.symbol? c with
    | some s =>
      have plain : c ≠ '\n' := by
        rintro rfl
        cases symbol
      have munch : Lexeme.munch (cursor.source.drop cursor.start) c rest = ⟨.token (.symbol s), [c], rest⟩ := by
        rw [Lexeme.munch, symbol]
      rw [scanToken_of_munch ahead munch rfl, passed_one cursor plain]
      rfl
    | none =>
      cases comparison : Lexeme.comparison? c with
      | some pair =>
        obtain ⟨alone, extended⟩ := pair
        exact walkComparison_eq ahead symbol comparison
      | none =>
        dsimp only
        split_ifs with slash quote line space
        · subst slash
          rw [scanToken_of_munch ahead rfl (Lexeme.munch_append '/' rest), @passed_one '/' cursor (by decide)]
          exact (walkSlash_eq ahead).symm
        · subst quote
          rw [scanToken_of_munch ahead rfl (Lexeme.munch_append '"' rest), @passed_one '"' cursor (by decide)]
          exact (walkQuoted_eq ahead).symm
        · subst line
          exact scanToken_of_munch ahead rfl (Lexeme.munch_append '\n' rest)
        · have munch : Lexeme.munch (cursor.source.drop cursor.start) c rest = ⟨.blank, [c], rest⟩ := by
            rw [Lexeme.munch, symbol, comparison]
            simp [slash, quote, space]
          rw [scanToken_of_munch ahead munch rfl, passed_one cursor line]
          rfl
        · apply walkWord_eq ahead line
          rw [Lexeme.munch, symbol, comparison]
          simp [slash, quote, space]

theorem walk_ne_outOfText {cursor : Cursor} (inside : cursor.current < cursor.source.length) :
    (walk cursor).1 ≠ .outOfText := by
  rw [← scanToken_eq_walk]
  unfold Cursor.scanToken
  split
  next nothing =>
    have past : cursor.source.length ≤ cursor.current := List.drop_eq_nil_iff.mp nothing
    omega
  next =>
    dsimp only
    split <;> exact Cursor.Step.noConfusion

/-- A whole scan that walks. It gives nothing if one of its steps is out of text. -/
def walkTokens (cursor : Cursor) : Option (List Problem × Cursor) :=
  if _inside : cursor.current < cursor.source.length then
    match _moves : walk cursor.mark with
    | (.outOfText, _) => none
    | (step, moved) => (walkTokens moved).map fun (problems, final) => (raised step ++ problems, final)
  else some ([], { cursor with tokens := cursor.tokens ++ [.eof cursor.line] })
termination_by cursor.source.length - cursor.current
decreasing_by exact Cursor.scanToken_mark_closer _inside ((scanToken_eq_walk _).trans _moves)

theorem walkTokens_eq (cursor : Cursor) : walkTokens cursor = some cursor.scanTokens := by
  fun_induction walkTokens with
  | case1 cursor inside moved moves =>
    have inside' : cursor.mark.current < cursor.mark.source.length := inside
    exact absurd (congrArg Prod.fst moves) (walk_ne_outOfText inside')
  | case2 cursor inside step moved some moves ih =>
    rw [ih, scanTokens_step inside ((scanToken_eq_walk _).trans moves)]
    rfl
  | case3 cursor outside => rw [Cursor.scanTokens, dif_neg outside]

/-- Walked character by character, a source has all the characters that are asked for, and gives what its scan
gives. -/
theorem walkTokens_scan (source : String) :
    ∃ final, walkTokens (.ofSource source) = some ((scan source).problems, final) ∧
      final.tokens = (scan source).tokens := by
  obtain ⟨-, problems, tokens⟩ := (cuts_segments source.toList).by_hand (.ofSource source) rfl
  refine ⟨(Cursor.ofSource source).scanTokens.2, ?_, tokens⟩
  rw [walkTokens_eq]
  exact congrArg (fun found => some (found, _)) problems

end Lox.Proofs
