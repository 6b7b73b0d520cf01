import Lox.Proofs.Running

/-! Recovery from stray characters. A character that nothing begins with ends what stands before it as a
space would, and scanning goes on right after it. With a space in the place of each one that was reported,
a source scans to the same tokens on the same lines, and all other problems stay. -/

namespace Lox.Proofs

/-- Where a stretch begins that is a stray character. -/
def Extent.stray? (extent : Extent) : Option Nat :=
  match extent.piece with
  | .fault (.unrecognized _) => some extent.start
  | _ => none

/-- The positions of the characters that the scan of a source reports as unrecognized. -/
def strayPositions (source : String) : List Nat :=
  (extents 0 (segments source.toList)).filterMap Extent.stray?

/-- The source with a space at each of these positions. -/
def mended (source : String) : String :=
  String.ofList (source.toList.mapIdx fun position c => if position ∈ strayPositions source then ' ' else c)

/-- The message is that of a stray character. -/
def TellsStray (message : String) : Prop := "Unrecognized character: ".toList <+: message.toList

instance : DecidablePred TellsStray := fun _ => inferInstanceAs (Decidable (_ <+: _))

/-- Spaces in the place of some stray characters. -/
def Mends : List Char → List Char → Prop := List.Forall₂ fun c d => d = c ∨ Stray c ∧ d = ' '

def mendSegment (segment : Segment) : Segment :=
  match segment.piece with
  | .fault (.unrecognized _) => ⟨.blank, [' ']⟩
  | _ => segment

def mendedText (cut : List Segment) : List Char := cut.flatMap fun segment => (mendSegment segment).text

section
variable {piece : Piece} {taken text rest rest' : List Char} {cut : List Segment}

theorem Mends.refl (text : List Char) : Mends text text := List.forall₂_same.mpr fun _ _ => .inl rfl

theorem Mends.head? (mends : Mends rest rest') {c : Char} (space : c ≠ ' ') (found : rest'.head? = some c) :
    rest.head? = some c := by
  cases mends with
  | nil => exact found
  | cons same _ =>
    rcases same with rfl | ⟨_, rfl⟩
    · exact found
    · exact absurd (Option.some.inj found).symm space

/-- What stands before the first space was there before. -/
theorem Mends.split {more after : List Char} (mends : Mends rest (more ++ after)) (solid : ' ' ∉ more) :
    ∃ after', rest = more ++ after' := by
  induction more generalizing rest with
  | nil => exact ⟨rest, rfl⟩
  | cons c more ih =>
    rw [List.mem_cons, not_or] at solid
    cases mends with
    | cons same later =>
      obtain ⟨after', rfl⟩ := ih later solid.2
      rcases same with rfl | ⟨_, rfl⟩
      · exact ⟨after', rfl⟩
      · exact absurd rfl solid.1

theorem Longest.before_mended {language : List Char → Prop} (longest : Longest language taken rest)
    (solid : ∀ text, language text → ' ' ∉ text) (mends : Mends rest rest') : Longest language taken rest' := by
  refine ⟨longest.member, ?_⟩
  rintro more after rfl longer
  have unspaced : ' ' ∉ more := fun inside => solid _ longer (List.mem_append_right taken inside)
  obtain ⟨after', split⟩ := mends.split unspaced
  exact longest.maximal more after' split longer

/-- A stretch is the same before a stray character as before a space. -/
theorem Lexical.before_mended (lexical : Lexical piece taken rest) (mends : Mends rest rest') :
    Lexical piece taken rest' := by
  have apart {c : Char} (space : c ≠ ' ') (other : rest.head? ≠ some c) : rest'.head? ≠ some c :=
    fun found => other (mends.head? space found)
  cases lexical with
  | keyword k longest spelled =>
    exact .keyword k (longest.before_mended (fun _ word => word.solid.1) mends) spelled
  | identifier longest plain => exact .identifier (longest.before_mended (fun _ word => word.solid.1) mends) plain
  | number longest => exact .number (longest.before_mended (fun _ numeral => numeral.solid.1) mends)
  | string unquoted => exact .string unquoted
  | punctuation spelled => exact .punctuation spelled
  | alone spelled other => exact .alone spelled (apart (by decide) other)
  | extended spelled => exact .extended spelled
  | slash line block => exact .slash (apart (by decide) line) (apart (by decide) block)
  | lineComment within ends =>
    refine .lineComment within ?_
    cases mends with
    | nil => exact .inl rfl
    | cons same _ =>
      obtain rfl := Option.some.inj (ends.resolve_left (List.cons_ne_nil _ _))
      rcases same with rfl | ⟨stray, -⟩
      · exact .inr rfl
      · exact absurd (.inr (.inr (.inr rfl))) stray.space
  | blockComment first => exact .blockComment first
  | space space => exact .space space
  | stray stray => exact .stray stray
  | openString unquoted =>
    cases mends
    exact .openString unquoted
  | openComment unclosed =>
    cases mends
    exact .openComment unclosed

theorem mendSegment_other (other : ∀ c, piece ≠ .fault (.unrecognized c)) :
    mendSegment ⟨piece, taken⟩ = ⟨piece, taken⟩ := by
  unfold mendSegment
  split
  next c same => exact absurd same (other c)
  next => rfl

theorem Extent.stray?_other (other : ∀ c, piece ≠ .fault (.unrecognized c)) (start stop : Nat) :
    Extent.stray? ⟨piece, start, stop⟩ = none := by
  unfold Extent.stray?
  split
  next c same => exact absurd same (other c)
  next => rfl

theorem Lexical.stray_or_other (lexical : Lexical piece taken rest) :
    (∃ c, Stray c ∧ piece = .fault (.unrecognized c) ∧ taken = [c]) ∨ ∀ c, piece ≠ .fault (.unrecognized c) := by
  cases lexical with
  | @stray c _ stray => exact .inl ⟨c, stray, rfl, rfl⟩
  | _ => exact .inr nofun

theorem Cuts.mended (cuts : Cuts text cut rest) (mends : Mends rest rest') :
    Mends text (mendedText cut ++ rest') ∧ Cuts (mendedText cut ++ rest') (cut.map mendSegment) rest' := by
  induction cuts with
  | done => exact ⟨mends, .done⟩
  | @step piece taken middle cut rest lexical _ ih =>
    obtain ⟨later, cuts⟩ := ih mends
    simp only [mendedText, List.flatMap_cons, List.map_cons, List.append_assoc]
    rcases lexical.stray_or_other with ⟨c, stray, rfl, rfl⟩ | other
    · exact ⟨.cons (.inr ⟨stray, rfl⟩) later, .step (.space (.inl rfl)) cuts⟩
    · rw [mendSegment_other other]
      exact ⟨List.rel_append (Mends.refl taken) later, .step (lexical.before_mended later) cuts⟩

theorem tellsStray_iff {cause : ScanFault} : TellsStray cause.message ↔ ∃ c, cause = .unrecognized c := by
  cases cause with
  | unrecognized c =>
    refine iff_of_true ?_ ⟨c, rfl⟩
    change _ <+: ("Unrecognized character: " ++ String.singleton c).toList
    rw [String.toList_append]
    exact List.prefix_append _ _
  | unterminatedString | unterminatedComment => exact iff_of_false (by decide) nofun

/-- Only the problems of stray characters go; a space is on the line that the stray character was on. -/
theorem Cuts.locate_mended (cuts : Cuts text cut rest) (line : Int) :
    Scan.locate line (cut.map mendSegment) = { Scan.locate line cut with
      problems := (Scan.locate line cut).problems.filter fun problem => ¬ TellsStray problem.message } := by
  induction cuts generalizing line with
  | done => rfl
  | @step piece taken middle cut rest lexical _ ih =>
    rw [List.map_cons]
    rcases lexical.stray_or_other with ⟨c, stray, rfl, rfl⟩ | other
    · have unbroken : newlines [c] = newlines [' '] := by
        have other : c ≠ '\n' := fun same => stray.space (.inr (.inr (.inr same)))
        simp [newlines, other]
      have tells : TellsStray ((ScanFault.unrecognized c).problem line).message := tellsStray_iff.mpr ⟨c, rfl⟩
      simp only [mendSegment, Scan.locate, unbroken, ih, List.filter_cons, tells, not_true, decide_false,
        Bool.false_eq_true, if_false]
    · rw [mendSegment_other other, Scan.locate, Scan.locate, ih]
      cases piece with
      | token _ | blank => rfl
      | fault cause =>
        have kept : ¬ TellsStray (cause.problem line).message := by
          intro tells
          obtain ⟨c, rfl⟩ := tellsStray_iff.mp tells
          exact other c rfl
        simp only [List.filter_cons, kept, not_false_eq_true, decide_true, if_true]

theorem Extent.stray?_eq_some {extent : Extent} {position : Nat} (found : extent.stray? = some position) :
    extent.start = position := by
  unfold Extent.stray? at found
  split at found
  · exact Option.some.inj found
  · cases found

theorem le_start_of_mem_extents {start : Nat} {extent : Extent} (member : extent ∈ extents start cut) :
    start ≤ extent.start := by
  induction cut generalizing start with
  | nil => cases member
  | cons segment later ih =>
    rcases List.mem_cons.mp member with rfl | further
    · exact Nat.le_refl start
    · exact Nat.le_trans (Nat.le_add_right _ _) (ih further)

/-- The mended text has spaces at the stray positions and is unchanged elsewhere. -/
theorem Cuts.mapIdx_eq (cuts : Cuts text cut []) (start : Nat) :
    (text.mapIdx fun position c =>
      if start + position ∈ (extents start cut).filterMap Extent.stray? then ' ' else c) = mendedText cut := by
  generalize empty : ([] : List Char) = rest at cuts
  induction cuts generalizing start with
  | done => simp [← empty, mendedText]
  | @step piece taken middle cut rest lexical _ ih =>
    have later := ih (start + taken.length) empty
    have beyond {position : Nat} (member : position ∈ (extents (start + taken.length) cut).filterMap Extent.stray?) :
        start + taken.length ≤ position := by
      obtain ⟨extent, inside, found⟩ := List.mem_filterMap.mp member
      exact Extent.stray?_eq_some found ▸ le_start_of_mem_extents inside
    have moved (position : Nat) : start + (position + taken.length) = start + taken.length + position := by omega
    rw [extents, List.mapIdx_append, mendedText, List.flatMap_cons, ← mendedText, ← later]
    rcases lexical.stray_or_other with ⟨c, stray, rfl, rfl⟩ | other
    · refine congrArg₂ _ ?_ (congrArg (List.mapIdx · middle) ?_)
      · simp [Extent.stray?, mendSegment]
      · funext position d
        have apart : start + (position + [c].length) ≠ start := by simp
        have found : Extent.stray? ⟨.fault (.unrecognized c), start, start + [c].length⟩ = some start := rfl
        refine if_congr ?_ rfl rfl
        rw [List.filterMap_cons_some found, List.mem_cons, or_iff_right apart, moved]
    · rw [List.filterMap_cons_none (Extent.stray?_other other _ _), mendSegment_other other]
      refine congrArg₂ _ (List.ext_getElem (List.length_mapIdx ..) fun position inside _ => ?_) ?_
      · rw [List.getElem_mapIdx, if_neg]
        intro member
        have bound := beyond member
        rw [List.length_mapIdx] at inside
        omega
      · simp only [moved]

end

theorem mended_toList (source : String) : (mended source).toList = mendedText (segments source.toList) := by
  have same := (cuts_segments source.toList).mapIdx_eq 0
  simp only [Nat.zero_add] at same
  rw [mended, String.toList_ofList]
  exact same

theorem segments_mended (source : String) :
    segments (mended source).toList = (segments source.toList).map mendSegment := by
  have cuts := ((cuts_segments source.toList).mended (Mends.refl [])).2
  rw [List.append_nil, ← mended_toList] at cuts
  simpa [segments] using cuts.eq_segments

theorem scan_mended_eq (source : String) :
    scan (mended source) = { scan source with
      problems := (scan source).problems.filter fun problem => ¬ TellsStray problem.message } := by
  rw [scan, segments_mended]
  exact (cuts_segments source.toList).locate_mended 1

/-- What is to be said of a stray character at a position. -/
def strayReport (source : List Char) (position : Nat) : Option Diagnostic :=
  source[position]?.map fun c => {
    stage := .scan
    line := lineAt source position
    location := ""
    message := "Unrecognized character: " ++ String.singleton c }

theorem Extent.strayReport_eq {source rest : List Char} {extent : Extent}
    (lexical : Lexical extent.piece (extent.text source) rest) :
    ((extent.problem? source).map Diagnostic.ofProblem).filter (fun d => TellsStray d.message) =
      extent.stray?.bind (strayReport source) := by
  obtain ⟨piece, start, stop⟩ := extent
  rcases lexical.stray_or_other with ⟨c, -, rfl, text⟩ | other
  · have here : source[start]? = some c := by
      have first := congrArg (·[0]?) text
      rw [Extent.text, List.getElem?_drop, List.getElem?_take] at first
      split at first
      · exact first
      · cases first
    have tells : TellsStray (ScanFault.unrecognized c).message := tellsStray_iff.mpr ⟨c, rfl⟩
    rw [Extent.problem?, Extent.stray?, Option.bind_some, strayReport, here]
    exact Option.filter_some_pos (decide_eq_true tells)
  · rw [Extent.stray?_other other]
    cases piece with
    | token _ | blank => rfl
    | fault cause =>
      refine Option.filter_some_neg (decide_eq_false fun tells => ?_)
      obtain ⟨c, rfl⟩ := tellsStray_iff.mp tells
      exact other c rfl

/-- A source scans to the same tokens when each character that was reported as unrecognized is replaced by a
space, and what is reported then, to any reporter, is all the rest. The characters in question are the ones
at the stray positions, with one report for each. -/
theorem scan_mended (source : String) :
    (scan (mended source)).tokens = (scan source).tokens ∧
    reported (mended source) = (reported source).filter (fun d => ¬ TellsStray d.message) ∧
    (reported source).filter (fun d => TellsStray d.message) =
      (strayPositions source).filterMap (strayReport source.toList) ∧
    (∀ reporter : Reporter, (reporter.recordAll (scan (mended source)).problems).diagnostics =
      reporter.diagnostics ++ (reported source).filter (fun d => ¬ TellsStray d.message)) := by
  have scanned := scan_mended_eq source
  have others : reported (mended source) = (reported source).filter (fun d => ¬ TellsStray d.message) := by
    rw [reported, reported, scanned, List.filter_map]
    rfl
  refine ⟨by rw [scanned], others, ?_, ?_⟩
  · have located : scan source = _ := (cuts_segments source.toList).located []
    rw [reported, located, strayPositions, List.filterMap_filterMap, List.map_filterMap, List.filter_filterMap]
    apply List.filterMap_congr
    intro extent member
    exact Extent.strayReport_eq ((cuts_segments source.toList).partition.lexical extent member)
  · intro reporter
    rw [recordAll_scan, others]

-- A stray character may end a numeral at its point, part two slashes, or stand where it is no fault.
example : mended "1.#2 !#= /#/ \"#\" //#" = "1. 2 ! = / / \"#\" //#" := by decide +kernel

end Lox.Proofs
