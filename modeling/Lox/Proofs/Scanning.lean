import Lox.Token.Cursor
import Lox.Proofs.MaximalMunch

/-! A whole scan cuts its source into stretches of the lexical grammar, in order and without
gaps, and there is only one way to do so. Tokens and problems stand on the lines that the
line ends before them give, and a scan by hand goes through the same stretches. -/

namespace Lox.Proofs

/-- `Cuts text segments rest`: the segments are the first stretches of the text and leave
`rest`, which is in view of each of them. -/
inductive Cuts : List Char → List Segment → List Char → Prop where
  | done {rest} : Cuts rest [] rest
  | step {piece taken middle segments rest} (lexical : Lexical piece taken middle)
      (later : Cuts middle segments rest) : Cuts (taken ++ middle) (⟨piece, taken⟩ :: segments) rest

theorem Cuts.append {text middle rest : List Char} {first second : List Segment}
    (before : Cuts text first middle) (after : Cuts middle second rest) :
    Cuts text (first ++ second) rest := by
  induction before with
  | done => exact after
  | step lexical _ ih => exact .step lexical (ih after)

theorem Cuts.one {piece : Piece} {taken rest : List Char} (lexical : Lexical piece taken rest) :
    Cuts (taken ++ rest) [⟨piece, taken⟩] rest :=
  .step lexical .done

theorem cuts_segments (text : List Char) : Cuts text (segments text) [] := by
  induction text using segments.induct with
  | case1 =>
    rw [segments]
    exact .done
  | case2 c rest stretch ih =>
    have step := Cuts.step (munch_lexical c rest) ih
    rw [Lexeme.munch_append] at step
    rw [segments]
    exact step

/-- The lexical grammar cuts a text in one way only, the one a scan finds. -/
theorem Cuts.eq_segments {text rest : List Char} {cut : List Segment} (cuts : Cuts text cut rest) :
    segments text = cut ++ segments rest := by
  induction cuts with
  | done => rfl
  | step lexical _ ih =>
    obtain ⟨c, text, split, same⟩ := lexical.munch
    rw [split, segments, same]
    simp only [ih, List.cons_append]

theorem Lexical.ne_nil {piece : Piece} {taken rest : List Char} (lexical : Lexical piece taken rest) :
    taken ≠ [] := by
  obtain ⟨c, text, _, same⟩ := lexical.munch
  have some := Lexeme.munch_taken_ne_nil c text
  rwa [same] at some

/-- `Scans text rest line tokens after`: from this line on the text begins with these tokens and no
fault, up to `rest` on the line `after`, with all of `rest` in view. -/
def Scans (text rest : List Char) (line : Int) (tokens : List Token) (after : Int) : Prop :=
  ∃ segments, Cuts text segments rest ∧ ∀ later, Scan.locate line (segments ++ later) =
    { Scan.locate after later with tokens := tokens ++ (Scan.locate after later).tokens }

section
variable {text middle rest taken : List Char} {line between after : Int} {first second tokens : List Token}

theorem Scans.append (before : Scans text middle line first between)
    (later : Scans middle rest between second after) : Scans text rest line (first ++ second) after := by
  obtain ⟨cut, cuts, located⟩ := before
  obtain ⟨cut', cuts', located'⟩ := later
  refine ⟨cut ++ cut', cuts.append cuts', fun later => ?_⟩
  rw [List.append_assoc, located, located']
  simp

theorem scans_token {kind : Kind} (lexical : Lexical (.token kind) taken rest) (line : Int) :
    Scans (taken ++ rest) rest line [.ofLexeme kind taken (line + newlines taken)] (line + newlines taken) :=
  ⟨_, .one lexical, fun _ => rfl⟩

theorem scans_blank (lexical : Lexical .blank taken rest) (line : Int) :
    Scans (taken ++ rest) rest line [] (line + newlines taken) :=
  ⟨_, .one lexical, fun _ => rfl⟩

theorem scans_space (rest : List Char) (line : Int) : Scans (' ' :: rest) rest line [] line := by
  have blank := @scans_blank rest [' '] (.space (.inl rfl)) line
  simpa [newlines] using blank

theorem Scans.scan_eq (scans : Scans text [] 1 tokens after) :
    scan (String.ofList text) = ⟨tokens ++ [.eof after], [], after⟩ := by
  obtain ⟨cut, cuts, located⟩ := scans
  rw [scan, String.toList_ofList, cuts.eq_segments, located, segments]
  rfl

end

theorem Cuts.mem_tokens {text rest : List Char} {cut : List Segment} (cuts : Cuts text cut rest) {line : Int}
    {token : Token} (member : token ∈ (Scan.locate line cut).tokens) :
    token.kind = .eof ∨ ∃ kind taken rest line, Lexical (.token kind) taken rest ∧
      token = .ofLexeme kind taken line := by
  induction cuts generalizing line with
  | done =>
    rw [Scan.locate, List.mem_singleton] at member
    exact .inl (member ▸ rfl)
  | @step piece taken middle segments rest lexical _ ih =>
    rw [Scan.locate] at member
    cases piece with
    | token kind =>
      rcases List.mem_cons.mp member with rfl | later
      · exact .inr ⟨kind, taken, middle, _, lexical, rfl⟩
      · exact ih later
    | blank => exact ih member
    | fault cause => exact ih member

/-- A stretch of a source: what it is, where it begins, and where the text after it begins. -/
structure Extent where
  piece : Piece
  start : Nat
  stop : Nat

def Extent.text (source : List Char) (extent : Extent) : List Char :=
  (source.take extent.stop).drop extent.start

/-- Non-empty stretches from the first character to the last, each one lexical with all the
text after it in view. -/
structure Partition (source : List Char) (extents : List Extent) : Prop where
  ordered : extents.map Extent.start ++ [source.length] = 0 :: extents.map Extent.stop
  nonempty : ∀ extent ∈ extents, extent.start < extent.stop
  lexical : ∀ extent ∈ extents,
    Lexical extent.piece (extent.text source) (source.drop extent.stop)

/-- The line of a position: one more than the line ends before it. -/
def lineAt (source : List Char) (position : Nat) : Int := 1 + newlines (source.take position)

/-- A token's line is that of its end, and its lexeme is the whole stretch. -/
def Extent.token? (source : List Char) (extent : Extent) : Option Token :=
  match extent.piece with
  | .token kind => some {
      kind
      lexeme := String.ofList (extent.text source)
      line := lineAt source extent.stop
      literal := Token.literalOf kind (extent.text source) }
  | _ => none

/-- A problem's line is that of the stretch's first character. -/
def Extent.problem? (source : List Char) (extent : Extent) : Option Problem :=
  match extent.piece with
  | .fault cause => some {
      stage := .scan
      message := cause.message
      line := some (lineAt source extent.start) }
  | _ => none

inductive Means : Kind → List Char → Value → Prop where
  | identifier {text} : Means .identifier text (.string (String.ofList text))
  | string {inner} : Means .string ('"' :: inner ++ ['"']) (.string (String.ofList inner))
  | number {text} : Means .number text (.number (Number.ofDecimal false (Decimal.ofNumeral text)).toSingle)
  | keyword {k text} : Means (.keyword k) text .nil
  | symbol {symbol text} : Means (.symbol symbol) text .nil

theorem literalOf_quoted (inner : List Char) :
    Token.literalOf .string ('"' :: inner ++ ['"']) = .string (String.ofList inner) := by
  simp [Token.literalOf]

theorem Lexical.means {kind : Kind} {taken rest : List Char} (lexical : Lexical (.token kind) taken rest) :
    Means kind taken (Token.literalOf kind taken) := by
  cases lexical with
  | identifier _ _ => exact .identifier
  | number _ => exact .number
  | keyword _ _ _ => exact .keyword
  | punctuation _ | alone _ _ | extended _ | slash _ _ => exact .symbol
  | @string inner _ _ =>
    rw [literalOf_quoted]
    exact .string

def extents (start : Nat) : List Segment → List Extent
  | [] => []
  | segment :: later =>
    ⟨segment.piece, start, start + segment.text.length⟩ :: extents (start + segment.text.length) later

theorem Cuts.ordered {text : List Char} {cut : List Segment} (cuts : Cuts text cut []) (start : Nat) :
    (extents start cut).map Extent.start ++ [start + text.length] =
      start :: (extents start cut).map Extent.stop := by
  generalize empty : ([] : List Char) = rest at cuts
  induction cuts generalizing start with
  | done => simp [extents, ← empty]
  | @step piece taken middle cut rest _ _ ih =>
    have later := ih (start + taken.length) empty
    rw [Nat.add_assoc, ← List.length_append] at later
    simp only [extents, List.map_cons, List.cons_append, later]

theorem newlines_append (first second : List Char) :
    newlines (first ++ second) = newlines first + newlines second :=
  List.count_append

theorem Extent.text_append (piece : Piece) (before taken rest : List Char) :
    Extent.text (before ++ (taken ++ rest)) ⟨piece, before.length, before.length + taken.length⟩ = taken := by
  simp [Extent.text, List.take_append]

theorem lineAt_append (before rest : List Char) :
    lineAt (before ++ rest) before.length = 1 + newlines before := by
  simp [lineAt]

theorem Cuts.lexical {text : List Char} {cut : List Segment} (cuts : Cuts text cut []) (before : List Char) :
    ∀ extent ∈ extents before.length cut, extent.start < extent.stop ∧
      Lexical extent.piece (extent.text (before ++ text)) ((before ++ text).drop extent.stop) := by
  generalize empty : ([] : List Char) = rest at cuts
  induction cuts generalizing before with
  | done => simp [extents]
  | @step piece taken middle cut rest lexical _ ih =>
    intro extent member
    rcases List.mem_cons.mp member with rfl | later
    · have some := List.length_pos_iff.mpr lexical.ne_nil
      refine ⟨Nat.lt_add_of_pos_right some, ?_⟩
      rw [Extent.text_append, ← List.append_assoc, ← List.length_append, List.drop_left]
      exact lexical
    · rw [← List.length_append] at later
      have found := ih (before ++ taken) empty extent later
      rwa [List.append_assoc] at found

theorem Cuts.partition {source : List Char} {cut : List Segment} (cuts : Cuts source cut []) :
    Partition source (extents 0 cut) where
  ordered := by simpa using cuts.ordered 0
  nonempty extent member := (cuts.lexical [] extent member).1
  lexical extent member := (cuts.lexical [] extent member).2

theorem Cuts.located {text : List Char} {cut : List Segment} (cuts : Cuts text cut []) (before : List Char) :
    Scan.locate (1 + newlines before) cut = {
      tokens := (extents before.length cut).filterMap (Extent.token? (before ++ text)) ++
        [.eof (lineAt (before ++ text) (before ++ text).length)]
      problems := (extents before.length cut).filterMap (Extent.problem? (before ++ text))
      lastLine := lineAt (before ++ text) (before ++ text).length } := by
  generalize empty : ([] : List Char) = rest at cuts
  induction cuts generalizing before with
  | done =>
    subst empty
    simp [Scan.locate, extents, lineAt]
  | @step piece taken middle cut rest _ _ ih =>
    have later := ih (before ++ taken) empty
    rw [newlines_append, Int.natCast_add, ← Int.add_assoc, List.append_assoc, List.length_append] at later
    have stop : lineAt (before ++ (taken ++ middle)) (before.length + taken.length) =
        1 + newlines before + newlines taken := by
      rw [← List.append_assoc, ← List.length_append, lineAt_append, newlines_append]
      omega
    have start := lineAt_append before (taken ++ middle)
    rw [Scan.locate]
    dsimp only
    rw [later]
    cases piece with
    | token kind =>
      simp [extents, List.filterMap_cons, Extent.token?, Extent.problem?, Extent.text_append, stop, Token.ofLexeme]
    | blank => simp [extents, List.filterMap_cons, Extent.token?, Extent.problem?]
    | fault cause => simp [extents, List.filterMap_cons, Extent.token?, Extent.problem?, start, ScanFault.problem]

/-- The cursor after each round of a whole scan. Its mark and its place bound the stretch that
the round took. -/
def rounds (cursor : Cursor) : List Cursor :=
  if _inside : cursor.current < cursor.source.length then
    cursor.mark.scanToken.2 :: rounds cursor.mark.scanToken.2
  else []
termination_by cursor.source.length - cursor.current
decreasing_by exact Cursor.scanToken_mark_closer _inside rfl

def taking (cursor : Cursor) (piece : Piece) (taken : List Char) : Cursor :=
  { cursor with
    start := cursor.current
    current := cursor.current + taken.length
    line := cursor.line + newlines taken
    tokens := match piece with
      | .token kind => cursor.tokens ++ [.ofLexeme kind taken (cursor.line + newlines taken)]
      | _ => cursor.tokens }

def ending (line : Int) : Piece → Cursor.Step
  | .fault cause => .fault (cause.problem line)
  | _ => .done

theorem scanToken_mark {cursor : Cursor} {piece : Piece} {taken rest : List Char}
    (ahead : cursor.ahead = taken ++ rest) (lexical : Lexical piece taken rest) :
    cursor.mark.scanToken = (ending cursor.line piece, taking cursor piece taken) := by
  obtain ⟨c, text, split, same⟩ := lexical.munch
  have whole : cursor.source.drop cursor.current = c :: text := ahead.trans split
  have size := congrArg List.length ahead
  have some := List.length_pos_iff.mpr lexical.ne_nil
  simp only [Cursor.ahead, List.length_drop, List.length_append] at size
  have place : cursor.source.length - rest.length = cursor.current + taken.length := by omega
  have lexeme : (cursor.source.take (cursor.current + taken.length)).drop cursor.current = taken := by
    rw [List.drop_take, Nat.add_sub_cancel_left, show cursor.source.drop cursor.current = taken ++ rest from ahead]
    simp
  have marked : cursor.mark.ahead = c :: text := whole
  unfold Cursor.scanToken
  rw [marked]
  simp only [Cursor.mark, whole, same, place]
  cases piece <;> simp [taking, ending, Cursor.addToken, Cursor.lexeme, lexeme, Token.ofLexeme]

theorem ahead_taking {cursor : Cursor} {taken rest : List Char} (piece : Piece)
    (ahead : cursor.ahead = taken ++ rest) : (taking cursor piece taken).ahead = rest := by
  have whole : cursor.source.drop cursor.current = taken ++ rest := ahead
  simp only [Cursor.ahead, taking]
  rw [← List.drop_drop, whole, List.drop_left]

theorem inside_of_ahead {cursor : Cursor} {taken rest : List Char} (ahead : cursor.ahead = taken ++ rest)
    (some : taken ≠ []) : cursor.current < cursor.source.length := by
  have size := congrArg List.length ahead
  have positive := List.length_pos_iff.mpr some
  simp only [Cursor.ahead, List.length_drop, List.length_append] at size
  omega

def raised : Cursor.Step → List Problem
  | .fault problem => [problem]
  | _ => []

theorem scanTokens_step {cursor moved : Cursor} {step : Cursor.Step}
    (inside : cursor.current < cursor.source.length) (moves : cursor.mark.scanToken = (step, moved)) :
    cursor.scanTokens = (raised step ++ moved.scanTokens.1, moved.scanTokens.2) := by
  rw [Cursor.scanTokens, dif_pos inside]
  split
  next step' moved' moves' =>
    cases moves.symm.trans moves'
    cases step <;> rfl

/-- A scan by hand goes through the stretches of the text ahead and finds what a scan of the
whole text finds there. -/
theorem Cuts.by_hand {text : List Char} {cut : List Segment} (cuts : Cuts text cut []) (cursor : Cursor)
    (ahead : cursor.ahead = text) :
    (rounds cursor).map (fun round => (round.start, round.current)) =
      (extents cursor.current cut).map (fun extent => (extent.start, extent.stop)) ∧
    cursor.scanTokens.1 = (Scan.locate cursor.line cut).problems ∧
    cursor.scanTokens.2.tokens = cursor.tokens ++ (Scan.locate cursor.line cut).tokens := by
  generalize empty : ([] : List Char) = rest at cuts
  induction cuts generalizing cursor with
  | done =>
    subst empty
    have outside : ¬ cursor.current < cursor.source.length := by
      have past := List.drop_eq_nil_iff.mp ahead
      omega
    rw [rounds, Cursor.scanTokens, dif_neg outside, dif_neg outside]
    exact ⟨rfl, rfl, rfl⟩
  | @step piece taken middle cut rest lexical _ ih =>
    have inside := inside_of_ahead ahead lexical.ne_nil
    have step := scanToken_mark ahead lexical
    obtain ⟨places, problems, tokens⟩ := ih (taking cursor piece taken) (ahead_taking piece ahead) empty
    rw [rounds, dif_pos inside, scanTokens_step inside step, step]
    refine ⟨?_, ?_⟩
    · simp only [List.map_cons, places, extents]
      rfl
    · cases piece with
      | token kind => exact ⟨problems, by simpa [ending, Scan.locate, taking] using tokens⟩
      | blank => exact ⟨problems, tokens⟩
      | fault cause => exact ⟨congrArg _ problems, tokens⟩

theorem Extent.text_append_drop {source : List Char} {extent : Extent} (order : extent.start ≤ extent.stop)
    (inside : extent.stop ≤ source.length) :
    extent.text source ++ source.drop extent.stop = source.drop extent.start := by
  have size : extent.start ≤ (source.take extent.stop).length := by
    rw [List.length_take]
    omega
  rw [Extent.text, ← List.drop_append_of_le_length size, List.take_append_drop]

/-- Consecutive lexical stretches from a position to the end are the cut of the text there. -/
theorem cuts_of_extents {source : List Char} (found : List Extent) (start : Nat)
    (ordered : found.map Extent.start ++ [source.length] = start :: found.map Extent.stop)
    (nonempty : ∀ extent ∈ found, extent.start < extent.stop)
    (lexical : ∀ extent ∈ found, Lexical extent.piece (extent.text source) (source.drop extent.stop)) :
    start ≤ source.length ∧ ∃ cut, Cuts (source.drop start) cut [] ∧ found = extents start cut := by
  induction found generalizing start with
  | nil =>
    obtain rfl : source.length = start := by simpa using ordered
    refine ⟨Nat.le_refl _, [], ?_, rfl⟩
    rw [List.drop_length]
    exact .done
  | cons extent found ih =>
    simp only [List.map_cons, List.cons_append, List.cons.injEq] at ordered
    obtain ⟨rfl, ordered⟩ := ordered
    obtain ⟨inside, cut, cuts, same⟩ := ih extent.stop ordered
      (fun other member => nonempty other (List.mem_cons_of_mem _ member))
      (fun other member => lexical other (List.mem_cons_of_mem _ member))
    have order := nonempty extent List.mem_cons_self
    have step := Cuts.step (lexical extent List.mem_cons_self) cuts
    rw [Extent.text_append_drop (Nat.le_of_lt order) inside] at step
    refine ⟨by omega, _, step, ?_⟩
    have size : extent.start + (extent.text source).length = extent.stop := by
      rw [Extent.text, List.length_drop, List.length_take]
      omega
    simp only [extents, size, ← same]

theorem Partition.unique {source : List Char} {found : List Extent} (partition : Partition source found) :
    found = extents 0 (segments source) := by
  obtain ⟨_, cut, cuts, same⟩ :=
    cuts_of_extents found 0 partition.ordered partition.nonempty partition.lexical
  have whole := cuts.eq_segments
  rw [List.drop_zero, segments, List.append_nil] at whole
  rw [same, whole]

/-- A scan is exact. Its rounds part the source into non-empty stretches in order, each what
the lexical grammar says of the text from there on, and no other such partition exists. The
tokens and problems are those of the stretches, on the lines of their positions; scanning by
hand gives the same ones. -/
theorem scan_maximal_munch (source : String) :
    ∃ found : List Extent,
      Partition source.toList found ∧
      (∀ other, Partition source.toList other → other = found) ∧
      (rounds (.ofSource source)).map (fun round => (round.start, round.current)) =
        found.map (fun extent => (extent.start, extent.stop)) ∧
      (scan source).tokens = found.filterMap (Extent.token? source.toList) ++
        [.eof (lineAt source.toList source.toList.length)] ∧
      (scan source).problems = found.filterMap (Extent.problem? source.toList) ∧
      (Cursor.ofSource source).scanTokens.2.tokens = (scan source).tokens ∧
      (Cursor.ofSource source).scanTokens.1 = (scan source).problems ∧
      ∀ extent ∈ found, ∀ kind, extent.piece = .token kind →
        Means kind (extent.text source.toList) (Token.literalOf kind (extent.text source.toList)) := by
  have cuts := cuts_segments source.toList
  have located : scan source = _ := cuts.located []
  obtain ⟨places, problems, tokens⟩ := cuts.by_hand (.ofSource source) rfl
  refine ⟨extents 0 (segments source.toList), cuts.partition, fun other partition => partition.unique,
    places, congrArg Scan.tokens located, congrArg Scan.problems located, tokens, problems, ?_⟩
  intro extent member kind piece
  have lexical := cuts.partition.lexical extent member
  rw [piece] at lexical
  exact lexical.means

end Lox.Proofs
