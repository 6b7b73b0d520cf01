import Lox.Proofs.Walking

/-! Every use of a cursor. Its moves may come in any order, and one that fails leaves a cursor that moves on. U+0000
stands for the end of the text, so a caller that expects U+0000 there is told that it has come, and the cursor leaves
the text. No other move takes it out, and no move brings it back. -/

namespace Lox.Proofs

inductive Move where
  | mark
  | scanToken
  | scanTokens
  | advance
  | accept (expected : Char)
  | addToken (kind : Kind) (literal : Value)
  deriving DecidableEq

inductive Response where
  | nothing
  | step (step : Cursor.Step)
  | problems (problems : List Problem)
  | taken (c : Option Char)
  | accepted (answer : Bool)
  deriving DecidableEq

def Move.perform (cursor : Cursor) : Move → Response × Cursor
  | .mark => (.nothing, cursor.mark)
  | .scanToken => (.step cursor.scanToken.1, cursor.scanToken.2)
  | .scanTokens => (.problems cursor.scanTokens.1, cursor.scanTokens.2)
  | .advance => (.taken cursor.advance.1, cursor.advance.2)
  | .accept expected => (.accepted (cursor.accept expected).1, (cursor.accept expected).2)
  | .addToken kind literal => (.nothing, cursor.addToken kind literal)

/-- One move, the cursor before and after it, and what the caller is told. -/
structure Motion where
  move : Move
  before : Cursor
  response : Response
  after : Cursor
  deriving DecidableEq

def Move.motion (cursor : Cursor) (move : Move) : Motion :=
  ⟨move, cursor, (move.perform cursor).1, (move.perform cursor).2⟩

def motions (cursor : Cursor) : List Move → List Motion
  | [] => []
  | move :: later => move.motion cursor :: motions (move.motion cursor).after later

/-- Where the cursor is after these moves. -/
def arrival (cursor : Cursor) : List Move → Cursor
  | [] => cursor
  | move :: later => arrival (move.motion cursor).after later

/-- U+0000 is expected where the text has ended. -/
def Motion.Overruns (motion : Motion) : Prop :=
  motion.move = .accept '\x00' ∧ motion.before.isAtEnd = true

instance : DecidablePred Motion.Overruns := fun motion =>
  inferInstanceAs (Decidable (motion.move = .accept '\x00' ∧ motion.before.isAtEnd = true))

/-- What is right for a caller that expects this character: true where it comes next, and then it is taken. The
exception is an overrun. -/
structure Accepting (expected : Char) (motion : Motion) : Prop where
  comes : motion.response = .accepted true ↔ motion.before.ahead.head? = some expected ∨ motion.Overruns
  takes : motion.response = .accepted true →
    motion.after = { motion.before with current := motion.before.current + 1 }
  stays : motion.response ≠ .accepted true → motion.response = .accepted false ∧ motion.after = motion.before

/-- The cursor is over this text, by so many places past its end, and not behind its mark. -/
structure Reaches (source : List Char) (beyond : Nat) (cursor : Cursor) : Prop where
  text : cursor.source = source
  mark : cursor.start ≤ cursor.current
  current : cursor.current - source.length = beyond

theorem word_rest_length_le (marked : List Char) (c : Char) (rest : List Char) :
    (Lexeme.word marked c rest).rest.length ≤ max marked.length rest.length := by
  cases marked with
  | nil => exact Nat.le_max_right _ _
  | cons first more =>
    unfold Lexeme.word
    dsimp only
    split
    · have shorter := ((first :: more).dropWhile_sublist Lexeme.isWordChar).length_le
      exact Nat.le_trans shorter (Nat.le_max_left _ _)
    · split
      · have parts := congrArg List.length (Lexeme.numeral_append (first :: more))
        rw [List.length_append] at parts
        dsimp only
        omega
      · exact Nat.le_max_right _ _

/-- Whatever the mark, a step leaves no more text than the mark or the cursor has ahead of it. -/
theorem munch_rest_length_le (marked : List Char) (c : Char) (rest : List Char) :
    (Lexeme.munch marked c rest).rest.length ≤ max marked.length rest.length := by
  have own := Lexeme.munch_rest_length_lt c rest
  have word := word_rest_length_le marked c rest
  have either : Lexeme.munch marked c rest = Lexeme.munch (c :: rest) c rest ∨
      Lexeme.munch marked c rest = Lexeme.word marked c rest := by
    unfold Lexeme.munch
    split
    · exact .inl rfl
    · split
      · exact .inl rfl
      · split_ifs <;> simp
  rcases either with same | same <;> rw [same]
  · exact Nat.le_trans (Nat.le_of_lt_succ own) (Nat.le_max_right _ _)
  · exact word

section
variable {source : List Char} {beyond : Nat} {cursor : Cursor}

theorem Reaches.marked (reaches : Reaches source beyond cursor) : Reaches source beyond cursor.mark :=
  ⟨reaches.text, Nat.le_refl _, reaches.current⟩

theorem Reaches.scanToken (reaches : Reaches source beyond cursor) : Reaches source beyond cursor.scanToken.2 := by
  cases ahead : cursor.ahead with
  | nil =>
    rw [Cursor.scanToken, ahead]
    exact reaches
  | cons c rest =>
    obtain ⟨rfl, mark, current⟩ := reaches
    have inside := @inside_of_ahead cursor [c] rest ahead (List.cons_ne_nil c [])
    have left := munch_rest_length_le (cursor.source.drop cursor.start) c rest
    have size := congrArg List.length ahead
    simp only [Cursor.ahead, List.length_drop, List.length_cons] at left size
    unfold Cursor.scanToken
    rw [ahead]
    dsimp only
    have place : cursor.start ≤ cursor.source.length -
        (Lexeme.munch (cursor.source.drop cursor.start) c rest).rest.length := by omega
    split <;> exact ⟨rfl, place, by dsimp only [Cursor.addToken]; omega⟩

theorem Reaches.scanTokens (reaches : Reaches source beyond cursor) : Reaches source beyond cursor.scanTokens.2 := by
  induction cursor using rounds.induct with
  | case1 cursor inside ih =>
    rw [scanTokens_step inside rfl]
    exact ih reaches.marked.scanToken
  | case2 cursor outside =>
    rw [Cursor.scanTokens, dif_neg outside]
    exact ⟨reaches.text, reaches.mark, reaches.current⟩

theorem Reaches.advance (reaches : Reaches source beyond cursor) : Reaches source beyond cursor.advance.2 := by
  obtain ⟨rfl, mark, current⟩ := reaches
  cases ahead : cursor.ahead with
  | nil =>
    rw [advance_end ahead]
    exact ⟨rfl, mark, current⟩
  | cons c rest =>
    have inside := @inside_of_ahead cursor [c] rest ahead (List.cons_ne_nil c [])
    rw [advance_ahead ahead]
    exact ⟨rfl, Nat.le_succ_of_le mark, by dsimp only; omega⟩

theorem Reaches.accept (reaches : Reaches source beyond cursor) (expected : Char) :
    Reaches source (beyond + if expected = '\x00' ∧ cursor.isAtEnd = true then 1 else 0)
      (cursor.accept expected).2 := by
  obtain ⟨rfl, mark, current⟩ := reaches
  rw [Cursor.accept]
  by_cases seen : cursor.peek = expected
  · have further : cursor.start ≤ cursor.current + 1 := Nat.le_succ_of_le mark
    rw [if_pos seen]
    rcases peek_eq_iff.mp seen with next | overruns
    · obtain ⟨rest, ahead⟩ := List.head?_eq_some_iff.mp next
      have inside := @inside_of_ahead cursor [expected] rest ahead (List.cons_ne_nil expected [])
      rw [isAtEnd_of_ahead ahead, if_neg (by simp)]
      exact ⟨rfl, further, by dsimp only; omega⟩
    · have outside : cursor.source.length ≤ cursor.current := List.drop_eq_nil_iff.mp (isAtEnd_iff.mp overruns.2)
      rw [if_pos overruns]
      exact ⟨rfl, further, by dsimp only; omega⟩
  · rw [if_neg seen, if_neg fun overruns => seen (peek_eq_iff.mpr (.inr overruns))]
    exact ⟨rfl, mark, current⟩

theorem overruns_accept {expected : Char} :
    ((Move.accept expected).motion cursor).Overruns ↔ expected = '\x00' ∧ cursor.isAtEnd = true := by
  simp [Motion.Overruns, Move.motion]

theorem accepting_motion (cursor : Cursor) (expected : Char) :
    Accepting expected ((Move.accept expected).motion cursor) := by
  have seen_iff : cursor.peek = expected ↔
      cursor.ahead.head? = some expected ∨ ((Move.accept expected).motion cursor).Overruns := by
    rw [peek_eq_iff, overruns_accept]
  by_cases seen : cursor.peek = expected
  · have accepted : cursor.accept expected = (true, { cursor with current := cursor.current + 1 }) := if_pos seen
    have response : ((Move.accept expected).motion cursor).response = .accepted true :=
      congrArg (fun result : Bool × Cursor => Response.accepted result.1) accepted
    exact ⟨iff_of_true response (seen_iff.mp seen), fun _ => congrArg Prod.snd accepted, fun no => absurd response no⟩
  · have refused : cursor.accept expected = (false, cursor) := if_neg seen
    have response : ((Move.accept expected).motion cursor).response = .accepted false :=
      congrArg (fun result : Bool × Cursor => Response.accepted result.1) refused
    have other : ((Move.accept expected).motion cursor).response ≠ .accepted true := by
      rw [response]
      decide
    exact ⟨iff_of_false other (mt seen_iff.mpr seen), fun yes => absurd yes other,
      fun _ => ⟨response, congrArg Prod.snd refused⟩⟩

theorem Reaches.step (reaches : Reaches source beyond cursor) (move : Move) :
    Reaches source (beyond + if (move.motion cursor).Overruns then 1 else 0) (move.motion cursor).after := by
  cases move with
  | mark => exact reaches.marked
  | scanToken => exact reaches.scanToken
  | scanTokens => exact reaches.scanTokens
  | advance => exact reaches.advance
  | accept expected =>
    simp only [overruns_accept]
    exact reaches.accept expected
  | addToken kind literal => exact ⟨reaches.text, reaches.mark, reaches.current⟩

theorem Reaches.run (reaches : Reaches source beyond cursor) (moves : List Move) :
    Reaches source (beyond + (motions cursor moves).countP Motion.Overruns) (arrival cursor moves) := by
  induction moves generalizing cursor beyond with
  | nil => exact reaches
  | cons move later ih =>
    have last := ih (reaches.step move)
    simpa [motions, arrival, List.countP_cons, Nat.add_assoc, Nat.add_comm] using last

end

theorem map_move_motions (cursor : Cursor) (moves : List Move) : (motions cursor moves).map Motion.move = moves := by
  induction moves generalizing cursor with
  | nil => rfl
  | cons move later ih => rw [motions, List.map_cons, ih]; rfl

theorem eq_motion_of_mem {cursor : Cursor} {moves : List Move} {motion : Motion}
    (member : motion ∈ motions cursor moves) : motion = motion.move.motion motion.before := by
  induction moves generalizing cursor with
  | nil => cases member
  | cons move later ih =>
    rcases List.mem_cons.mp member with rfl | later
    · rfl
    · exact ih later

/-- A cursor leaves its text only where U+0000 is expected at the end of it, by one place each time and for good.
Whatever else is done with it and in whatever order, mark and cursor stay inside, and an expected character is found
exactly where it comes next. Each step is a walk that looks two characters ahead. -/
theorem moves_leave_text_iff (source : String) (moves : List Move) :
    (motions (.ofSource source) moves).map Motion.move = moves ∧
    (arrival (.ofSource source) moves).source = source.toList ∧
    (arrival (.ofSource source) moves).start ≤ (arrival (.ofSource source) moves).current ∧
    (arrival (.ofSource source) moves).current - source.toList.length =
      (motions (.ofSource source) moves).countP Motion.Overruns ∧
    ((arrival (.ofSource source) moves).start ≤ source.toList.length ∧
      (arrival (.ofSource source) moves).current ≤ source.toList.length ↔
        ∀ motion ∈ motions (.ofSource source) moves, ¬ motion.Overruns) ∧
    ∀ motion ∈ motions (.ofSource source) moves,
      (∀ expected, motion.move = .accept expected → Accepting expected motion) ∧
      (motion.move = .scanToken →
        motion.response = .step (walk motion.before).1 ∧ motion.after = (walk motion.before).2) := by
  have first : Reaches source.toList 0 (.ofSource source) := ⟨rfl, Nat.le_refl 0, Nat.zero_sub _⟩
  obtain ⟨text, mark, current⟩ := first.run moves
  rw [Nat.zero_add] at current
  refine ⟨map_move_motions _ moves, text, mark, current, ?_, ?_⟩
  · have none : (motions (.ofSource source) moves).countP Motion.Overruns = 0 ↔
        ∀ motion ∈ motions (.ofSource source) moves, ¬ motion.Overruns := by
      simp [List.countP_eq_zero]
    rw [← none]
    omega
  · intro motion member
    have performed := eq_motion_of_mem member
    refine ⟨?_, ?_⟩
    · intro expected accepts
      rw [accepts] at performed
      rw [performed]
      exact accepting_motion motion.before expected
    · intro scans
      rw [scans] at performed
      rw [← scanToken_eq_walk]
      exact ⟨congrArg Motion.response performed, congrArg Motion.after performed⟩

/-- Over a letter and U+0000, which is taken where it stands and taken again where the text has ended. -/
def pastZero : List Move := [.scanToken, .accept '\x00', .accept '\x00', .mark, .advance]

theorem moves_leave_letter_zero :
    (∀ motion ∈ motions (.ofSource "a\x00") (pastZero.take 2), ¬ motion.Overruns) ∧
    (arrival (.ofSource "a\x00") (pastZero.take 2)).current ≤ "a\x00".toList.length ∧
    (∃ motion ∈ motions (.ofSource "a\x00") (pastZero.take 2),
      motion.move = .accept '\x00' ∧ motion.response = .accepted true ∧ motion.before.ahead.head? = some '\x00') ∧
    (∃ motion ∈ motions (.ofSource "a\x00") pastZero, motion.Overruns ∧ motion.response = .accepted true) ∧
    (arrival (.ofSource "a\x00") pastZero).current - "a\x00".toList.length = 1 ∧
    (∃ motion ∈ motions (.ofSource "a\x00") pastZero,
      motion.move = .scanToken ∧ motion.response = .step (walk motion.before).1) := by
  obtain ⟨-, -, -, -, inside, stays⟩ := moves_leave_text_iff "a\x00" (pastZero.take 2)
  obtain ⟨-, -, -, beyond, -, leaves⟩ := moves_leave_text_iff "a\x00" pastZero
  have none : ∀ motion ∈ motions (.ofSource "a\x00") (pastZero.take 2), ¬ motion.Overruns := by decide +kernel
  have second : ∃ motion ∈ motions (.ofSource "a\x00") (pastZero.take 2),
      motion.move = .accept '\x00' ∧ motion.before.ahead.head? = some '\x00' := by decide +kernel
  have third : ∃ motion ∈ motions (.ofSource "a\x00") pastZero, motion.Overruns := by decide +kernel
  have start : ∃ motion ∈ motions (.ofSource "a\x00") pastZero, motion.move = .scanToken := by decide +kernel
  have once : (motions (.ofSource "a\x00") pastZero).countP Motion.Overruns = 1 := by decide +kernel
  refine ⟨none, (inside.mpr none).2, ?_, ?_, beyond.trans once, ?_⟩
  · obtain ⟨motion, member, accepts, zero⟩ := second
    have accepting := (stays motion member).1 _ accepts
    exact ⟨motion, member, accepts, accepting.comes.mpr (.inl zero), zero⟩
  · obtain ⟨motion, member, overruns⟩ := third
    have accepting := (leaves motion member).1 _ overruns.1
    exact ⟨motion, member, overruns, accepting.comes.mpr (.inr overruns)⟩
  · obtain ⟨motion, member, scans⟩ := start
    exact ⟨motion, member, scans, ((leaves motion member).2 scans).1⟩

end Lox.Proofs
