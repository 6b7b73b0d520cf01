import Lox.Cli.PlainTerminal
import Lox.Cli.Session
import Lox.Proofs.Running

/-! A session keeps nothing from one line to the next. Its reporter is empty whenever a line is read,
after a value, after a failure of any stage and after a blank line alike, so each line is answered
as it is when run on its own, and no other line has a say in it. -/

namespace Lox.Proofs
open Cli

/-- What a session writes for each line, up to the next prompt. -/
def turns (style : SessionStyle) (reporter : Reporter) : List String → List (List Emission)
  | [] => []
  | line :: later =>
    (Session.answer style reporter line).1 :: turns style (Session.answer style reporter line).2 later

/-- A prompt before each turn, and one more before the end of input. -/
def transcript (style : SessionStyle) (turns : List (List Emission)) : List Emission :=
  turns.flatMap (Session.prompt style :: ·) ++ Session.prompt style :: Session.ending style

theorem answerAll_eq_transcript (style : SessionStyle) (reporter : Reporter) (lines : List String) :
    Session.answerAll style reporter lines = transcript style (turns style reporter lines) := by
  induction lines generalizing reporter with
  | nil => rfl
  | cons line later ih =>
    change Session.prompt style :: (Session.answer style reporter line).1 ++
      Session.answerAll style (Session.answer style reporter line).2 later = _
    rw [ih, turns, transcript, transcript, List.flatMap_cons, List.append_assoc]

def BlankLine (line : String) : Prop := ∀ c ∈ line.toList, Text.isBlank c = true

theorem isAllBlank_iff {line : String} : Text.isAllBlank line.toList = true ↔ BlankLine line := by
  rw [Text.isAllBlank, List.all_eq_true]
  exact Iff.rfl

/-- A line on standard output that shows a text. -/
def outLine (style : SessionStyle) (text : String) : Emission := .out (style.terminal.shown text ++ "\n")

/-- For each diagnostic a line on standard error that shows its text. -/
def errorLines (style : SessionStyle) (diagnostics : List Diagnostic) : List Emission :=
  diagnostics.map fun d => .err (style.terminal.shown d.text ++ "\n")

def runLog (style : SessionStyle) (line : String) : List Emission :=
  Console.log style.logging style.stamp ((run line).events.map Event.logRecord)

/-- `Reply style line emissions`: this is what a line gets when it is run by itself. Only a session
with a log writes anything besides the value or the diagnostics. -/
inductive Reply (style : SessionStyle) (line : String) : List Emission → Prop where
  | nothing (blank : BlankLine line) : Reply style line []
  | value (some : ¬ BlankLine line) (fine : (run line).outcome.ok = true) :
      Reply style line (runLog style line ++ [outLine style (run line).outcome.text])
  | diagnostics (some : ¬ BlankLine line) (failed : (run line).outcome.ok = false) :
      Reply style line (runLog style line ++ errorLines style (run line).outcome.diagnostics)

theorem answer_reply (style : SessionStyle) (line : String) :
    Reply style line (Session.answer style {} line).1 := by
  unfold Session.answer
  split
  next blank => exact .nothing (isAllBlank_iff.mp blank)
  next other =>
    have some := mt isAllBlank_iff.mpr other
    change Reply style line (Session.printed style (run line))
    unfold Session.printed
    split
    next fine => exact .value some fine
    next failed => exact .diagnostics some (Bool.not_eq_true _ ▸ failed)

/-- Whatever becomes of a line, the next one finds an empty reporter. -/
theorem answer_forgets (style : SessionStyle) (line : String) : (Session.answer style {} line).2 = {} := by
  unfold Session.answer
  split
  · rfl
  · rfl

theorem turns_eq_map (style : SessionStyle) (lines : List String) :
    turns style {} lines = lines.map fun line => (Session.answer style {} line).1 := by
  induction lines with
  | nil => rfl
  | cons line later ih => rw [turns, answer_forgets, ih, List.map_cons]

theorem turns_replies (style : SessionStyle) (lines : List String) :
    List.Forall₂ (Reply style) lines (turns style {} lines) := by
  rw [turns_eq_map, List.forall₂_map_right_iff, List.forall₂_same]
  exact fun line _ => answer_reply style line

theorem turns_getElem? (style : SessionStyle) (before : List String) (line : String) (after : List String) :
    (turns style {} (before ++ line :: after))[before.length]? = some (Session.answer style {} line).1 := by
  rw [turns_eq_map, List.getElem?_map]
  simp

/-- A line that can be typed: no line end is in it. -/
def Unbroken (line : String) : Prop := '\n' ∉ line.toList ∧ '\r' ∉ line.toList

instance : DecidablePred Unbroken := fun _ => inferInstanceAs (Decidable (_ ∧ _))

/-- The input that has the lines, each with its end. -/
def typed (lines : List String) : String := String.join (lines.map (· ++ "\n"))

theorem unifyNewlines_of_not_mem {text : List Char} (none : '\r' ∉ text) : Text.unifyNewlines text = text := by
  fun_induction Text.unifyNewlines text with
  | case1 => rfl
  | case2 rest _ => exact absurd List.mem_cons_self none
  | case3 rest _ _ => exact absurd List.mem_cons_self none
  | case4 c rest _ _ ih => rw [ih fun inside => none (List.mem_cons_of_mem _ inside)]

theorem pieces_append {separator : Char} {piece : List Char} (unbroken : separator ∉ piece) (rest : List Char) :
    Text.pieces separator (piece ++ separator :: rest) = piece :: Text.pieces separator rest := by
  induction piece with
  | nil => rw [List.nil_append, Text.pieces, if_pos rfl]
  | cons c piece ih =>
    rw [List.mem_cons, not_or] at unbroken
    rw [List.cons_append, Text.pieces, if_neg (Ne.symm unbroken.1), ih unbroken.2]

theorem typed_cons (line : String) (lines : List String) :
    (typed (line :: lines)).toList = line.toList ++ '\n' :: (typed lines).toList := by
  simp [typed]

theorem pieces_typed {lines : List String} (whole : ∀ line ∈ lines, Unbroken line) :
    Text.pieces '\n' (typed lines).toList = lines.map String.toList ++ [[]] := by
  induction lines with
  | nil => rfl
  | cons line lines ih =>
    rw [List.forall_mem_cons] at whole
    rw [typed_cons, pieces_append whole.1.1, ih whole.2]
    rfl

theorem return_not_mem_typed {lines : List String} (whole : ∀ line ∈ lines, Unbroken line) :
    '\r' ∉ (typed lines).toList := by
  induction lines with
  | nil => exact List.not_mem_nil
  | cons line lines ih =>
    rw [List.forall_mem_cons] at whole
    rw [typed_cons, List.mem_append, List.mem_cons]
    rintro (inside | same | later)
    · exact whole.1.2 inside
    · cases same
    · exact ih whole.2 later

/-- A session reads the lines as they were typed. -/
theorem linesOf_typed {lines : List String} (whole : ∀ line ∈ lines, Unbroken line) :
    Session.linesOf (typed lines) = lines := by
  rw [Session.linesOf, unifyNewlines_of_not_mem (return_not_mem_typed whole), Text.lines, pieces_typed whole]
  simp

/-- A session writes, for each line between two prompts, what that line gets when it is run by itself,
and so it does in any other session, whatever the lines are that come before and after. -/
theorem session_answers_alone (style : SessionStyle) (lines : List String) :
    Session.answerAll style {} lines = transcript style (turns style {} lines) ∧
    List.Forall₂ (Reply style) lines (turns style {} lines) ∧
    (∀ before line after, lines = before ++ line :: after → ∀ before' after',
      (turns style {} lines)[before.length]? = (turns style {} (before' ++ line :: after'))[before'.length]?) ∧
    ((∀ line ∈ lines, Unbroken line) →
      Session.emissions style (typed lines) = Session.answerAll style {} lines) := by
  refine ⟨answerAll_eq_transcript style {} lines, turns_replies style lines, ?_, ?_⟩
  · intro before line after same before' after'
    rw [same, turns_getElem?, turns_getElem?]
  · intro whole
    rw [Session.emissions, linesOf_typed whole]

def plainStyle : SessionStyle := ⟨"> ", false, "", .plain⟩

/-- Lines that fail in each of the three stages, a blank one, and one that has a value. -/
def troubled : List String := ["@", "(", "!nil", " \t", "!true", "\"a"]

theorem session_troubled :
    (∀ line ∈ troubled, Unbroken line) ∧
      (turns plainStyle {} troubled)[4]? = (turns plainStyle {} ["!true"])[0]? ∧
      Session.emissions plainStyle (typed troubled) = [
        .out "> ", .err "[line 1] Error: Unrecognized character: @\n",
        .out "> ", .err "[line 1] Error at end: Expected a literal or '('.\n",
        .out "> ", .err "[line 1] Error: Cannot perform 'Not' on operand 'nil'\n",
        .out "> ",
        .out "> ", .out "false\n",
        .out "> ", .err "[line 1] Error: Unterminated string.\n",
        .out "> ", .out "\n"] := by
  have whole : ∀ line ∈ troubled, Unbroken line := by decide
  obtain ⟨-, -, others, typed⟩ := session_answers_alone plainStyle troubled
  refine ⟨whole, others ["@", "(", "!nil", " \t"] "!true" ["\"a"] rfl [] [], (typed whole).trans ?_⟩
  decide +kernel

end Lox.Proofs
