import Lox.Proofs.Composition

/-! The lines of a scan. All that is found stands between the first line and the last, where the one
end of input is. Texts joined at a line end scan to what both scan to, with the lines of the second
moved, unless the first one leaves a string or a comment open. -/

namespace Lox.Proofs

/-- `Within first last line`: the line is one of those from the first to the last. -/
def Within (first last line : Int) : Prop := first ≤ line ∧ line ≤ last

theorem Within.widen {first first' last line : Int} (within : Within first' last line) (earlier : first ≤ first') :
    Within first last line :=
  ⟨Int.le_trans earlier within.1, within.2⟩

theorem locate_lastLine_le (line : Int) (cut : List Segment) : line ≤ (Scan.locate line cut).lastLine := by
  induction cut generalizing line with
  | nil => exact Int.le_refl line
  | cons segment later ih =>
    have below : line ≤ line + newlines segment.text := by omega
    have bound := Int.le_trans below (ih (line + newlines segment.text))
    rw [Scan.locate]
    cases segment.piece with
    | token _ | blank | fault _ => exact bound

theorem locate_token_within {line : Int} {cut : List Segment} {token : Token}
    (member : token ∈ (Scan.locate line cut).tokens) : Within line (Scan.locate line cut).lastLine token.line := by
  induction cut generalizing line with
  | nil =>
    rw [List.mem_singleton.mp member]
    exact ⟨Int.le_refl line, Int.le_refl line⟩
  | cons segment later ih =>
    have below : line ≤ line + newlines segment.text := by omega
    rw [Scan.locate] at member ⊢
    cases piece : segment.piece with
    | token kind =>
      rw [piece] at member
      rcases List.mem_cons.mp member with rfl | further
      · exact ⟨below, locate_lastLine_le _ later⟩
      · exact (ih further).widen below
    | blank | fault _ =>
      rw [piece] at member
      exact (ih member).widen below

theorem locate_problem_within {line : Int} {cut : List Segment} {problem : Problem}
    (member : problem ∈ (Scan.locate line cut).problems) :
    ∃ cause place, problem = ScanFault.problem cause place ∧ Within line (Scan.locate line cut).lastLine place := by
  induction cut generalizing line with
  | nil => cases member
  | cons segment later ih =>
    have below : line ≤ line + newlines segment.text := by omega
    have further (found : problem ∈ (Scan.locate (line + newlines segment.text) later).problems) :
        ∃ cause place, problem = ScanFault.problem cause place ∧
          Within line (Scan.locate (line + newlines segment.text) later).lastLine place := by
      obtain ⟨cause, place, same, within⟩ := ih found
      exact ⟨cause, place, same, within.widen below⟩
    rw [Scan.locate] at member ⊢
    cases piece : segment.piece with
    | token _ | blank =>
      rw [piece] at member
      exact further member
    | fault cause =>
      rw [piece] at member
      rcases List.mem_cons.mp member with same | found
      · exact ⟨cause, line, same, Int.le_refl line, Int.le_trans below (locate_lastLine_le _ later)⟩
      · exact further found

theorem Extent.token?_kind_ne_eof {source rest : List Char} {extent : Extent} {token : Token}
    (lexical : Lexical extent.piece (extent.text source) rest) (found : extent.token? source = some token) :
    token.kind ≠ .eof := by
  unfold Extent.token? at found
  split at found
  next kind piece =>
    cases found
    rw [piece] at lexical
    exact lexical.kind_ne_eof
  next => cases found

/-- A scan ends on the last line, and its last token is the only end of input. -/
theorem scan_ended (source : String) :
    (scan source).lastLine = 1 + newlines source.toList ∧
      ∃ body, (scan source).tokens = body ++ [.eof (1 + newlines source.toList)] ∧ NoEnd body := by
  have cuts := cuts_segments source.toList
  have located : scan source = _ := cuts.located []
  have last : lineAt source.toList source.toList.length = 1 + newlines source.toList := by
    rw [lineAt, List.take_length]
  rw [located, List.nil_append, last]
  refine ⟨rfl, _, rfl, fun token member => ?_⟩
  obtain ⟨extent, inside, found⟩ := List.mem_filterMap.mp member
  exact Extent.token?_kind_ne_eof (cuts.partition.lexical extent inside) found

/-- From one segment to the next nothing is handed on but the line. -/
theorem locate_append (line : Int) (first second : List Segment) :
    Scan.locate line (first ++ second) = {
      tokens := (Scan.locate line first).tokens.dropLast ++
        (Scan.locate (Scan.locate line first).lastLine second).tokens
      problems := (Scan.locate line first).problems ++
        (Scan.locate (Scan.locate line first).lastLine second).problems
      lastLine := (Scan.locate (Scan.locate line first).lastLine second).lastLine } := by
  induction first generalizing line with
  | nil => rfl
  | cons segment later ih =>
    have some : (Scan.locate (line + newlines segment.text) later).tokens ≠ [] := by
      obtain ⟨token, rest, same⟩ := (locate_hasEnd (line + newlines segment.text) later).exists_cons
      rw [same]
      exact List.cons_ne_nil _ _
    rw [List.cons_append, Scan.locate, Scan.locate, ih]
    cases segment.piece with
    | token kind => simp only [List.dropLast_cons_of_ne_nil some, List.cons_append]
    | blank | fault _ => rfl

section
variable {text : List Char} {first source : String}

theorem segments_joined (closed : ∀ segment ∈ segments text, ¬ Unclosed segment.piece) (more : List Char) :
    segments (text ++ '\n' :: more) = segments text ++ ⟨.blank, ['\n']⟩ :: segments more := by
  have cuts := (cuts_segments text).before_newline closed more
  have newline : Lexical .blank ['\n'] more := .space (.inr (.inr (.inr rfl)))
  have between : segments ('\n' :: more) = [⟨.blank, ['\n']⟩] ++ segments more := (Cuts.one newline).eq_segments
  rw [cuts.eq_segments, List.nil_append, between]
  rfl

theorem closed_of_reported
    (closed : ∀ d ∈ reported source,
      d.message ≠ "Unterminated string." ∧ d.message ≠ "Unterminated block comment.") :
    ∀ segment ∈ segments source.toList, ¬ Unclosed segment.piece := by
  have message {segment : Segment} {cause : ScanFault} (member : segment ∈ segments source.toList)
      (faulty : segment.piece = .fault cause) : ∃ d ∈ reported source, d.message = cause.message := by
    obtain ⟨place, found⟩ := problem_of_fault member faulty 1
    exact ⟨_, List.mem_map_of_mem found, rfl⟩
  rintro segment member (faulty | faulty)
  · obtain ⟨d, found, same⟩ := message member faulty
    exact (closed d found).1 same
  · obtain ⟨d, found, same⟩ := message member faulty
    exact (closed d found).2 same

theorem scan_before_newline (closed : ∀ segment ∈ segments first.toList, ¬ Unclosed segment.piece)
    (second : String) :
    scan (first ++ "\n" ++ second) = {
      moveScan (· + (1 + newlines first.toList : Int)) (scan second) with
      tokens := (scan first).tokens.dropLast ++
        (moveScan (· + (1 + newlines first.toList : Int)) (scan second)).tokens
      problems := (scan first).problems ++
        (moveScan (· + (1 + newlines first.toList : Int)) (scan second)).problems } := by
  have text : (first ++ "\n" ++ second).toList = first.toList ++ '\n' :: second.toList := by simp
  have line : (scan first).lastLine + newlines ['\n'] = 1 + (1 + newlines first.toList : Int) := by
    rw [(scan_ended first).1]
    exact Int.add_comm _ _
  have after : Scan.locate (scan first).lastLine (⟨.blank, ['\n']⟩ :: segments second.toList) =
      moveScan (· + (1 + newlines first.toList : Int)) (scan second) := by
    rw [Scan.locate, line, locate_add]
    rfl
  rw [← after, scan, text, segments_joined closed, locate_append]
  rfl

end

def moveDiagnostic (move : Int → Int) (d : Diagnostic) : Diagnostic := { d with line := move d.line }

theorem reported_move (source : String) (move : Int → Int) :
    (moveScan move (scan source)).problems.map .ofProblem = (reported source).map (moveDiagnostic move) := by
  rw [reported, moveScan, List.map_map, List.map_map]
  apply List.map_congr_left
  intro problem member
  obtain ⟨cause, place, rfl, -⟩ := locate_problem_within member
  rfl

/-- Scanned together at a line end, two texts give the tokens of the first without its end of input,
then those of the second on the lines that they now stand on; and likewise for what is reported, be the
reporter empty or not. -/
theorem scan_joined (first second : String)
    (closed : ∀ d ∈ reported first,
      d.message ≠ "Unterminated string." ∧ d.message ≠ "Unterminated block comment.") :
    (∃ body line, (scan first).tokens = body ++ [.eof line] ∧ NoEnd body ∧
      (scan (first ++ "\n" ++ second)).tokens = body ++
        (scan second).tokens.map (moveToken (· + (1 + newlines first.toList : Int)))) ∧
    reported (first ++ "\n" ++ second) = reported first ++
      (reported second).map (moveDiagnostic (· + (1 + newlines first.toList : Int))) ∧
    (∀ reporter : Reporter,
      (reporter.recordAll (scan (first ++ "\n" ++ second)).problems).diagnostics =
        reporter.diagnostics ++ (reported first ++
          (reported second).map (moveDiagnostic (· + (1 + newlines first.toList : Int))))) := by
  have scanned := scan_before_newline (closed_of_reported closed) second
  obtain ⟨-, body, tokens, others⟩ := scan_ended first
  have found : reported (first ++ "\n" ++ second) = reported first ++
      (reported second).map (moveDiagnostic (· + (1 + newlines first.toList : Int))) := by
    rw [reported, scanned, List.map_append, reported_move, ← reported]
  refine ⟨⟨body, _, tokens, others, ?_⟩, found, ?_⟩
  · rw [scanned, tokens, List.dropLast_concat]
    rfl
  · intro reporter
    rw [recordAll_scan, found]

/-- At the end of the first text a slash looks ahead, and the second begins with another one. -/
theorem scan_joined_slashes :
    (∀ d ∈ reported "@ nil /", d.message ≠ "Unterminated string." ∧ d.message ≠ "Unterminated block comment.") ∧
      (scan ("@ nil /" ++ "\n" ++ "/ \"a\n\" #")).tokens = [
        ⟨.keyword .nil, "nil", 1, .nil⟩, ⟨.symbol .slash, "/", 1, .nil⟩, ⟨.symbol .slash, "/", 2, .nil⟩,
        ⟨.string, "\"a\n\"", 3, .string "a\n"⟩, .eof 3] ∧
      reported ("@ nil /" ++ "\n" ++ "/ \"a\n\" #") = [
        ⟨.scan, 1, "", "Unrecognized character: @"⟩, ⟨.scan, 3, "", "Unrecognized character: #"⟩] := by
  have closed : ∀ d ∈ reported "@ nil /",
      d.message ≠ "Unterminated string." ∧ d.message ≠ "Unterminated block comment." := by
    decide +kernel
  obtain ⟨⟨body, line, first, -, tokens⟩, found, -⟩ := scan_joined "@ nil /" "/ \"a\n\" #" closed
  have split : (scan "@ nil /").tokens =
      [⟨.keyword .nil, "nil", 1, .nil⟩, ⟨.symbol .slash, "/", 1, .nil⟩] ++ [.eof 1] := by
    decide +kernel
  obtain ⟨rfl, -⟩ := List.append_inj' (first.symm.trans split) rfl
  refine ⟨closed, tokens.trans ?_, found.trans ?_⟩
  · decide +kernel
  · decide +kernel

end Lox.Proofs
