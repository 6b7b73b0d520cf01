import Mathlib.Logic.Function.Iterate
import Mathlib.Order.Bounds.Basic
import Lox.Proofs.ParserGrammar

/-! Recovery at statements. Synchronizing passes over the current token and on to the nearest boundary of a
statement, so that synchronizing again and again comes to every boundary and misses none. The cursor
looks back in each round, but never from the first token. -/

namespace Lox.Proofs

def statementKinds : List Kind :=
  [.keyword .class_, .keyword .fun_, .keyword .var, .keyword .for_, .keyword .if_, .keyword .while_,
    .keyword .print, .keyword .return_]

/-- Where recovery may stop: at the end of input, after a semicolon, and before a statement. -/
inductive Boundary (tokens : List Token) : Nat → Prop where
  | ending {position : Nat} {token : Token} (here : tokens[position]? = some token) (kind : token.kind = .eof) :
      Boundary tokens position
  | semicolon {position : Nat} {token : Token} (before : tokens[position]? = some token)
      (kind : token.kind = .symbol .semicolon) : Boundary tokens (position + 1)
  | statement {position : Nat} {token : Token} (here : tokens[position]? = some token)
      (kind : token.kind ∈ statementKinds) : Boundary tokens position

/-- `Skips parser looks moved`: the loop of a synchronization, round by round, as a cursor goes through it.
The positions from which it looks at the token before are `looks`. -/
inductive Skips : Parser → List Nat → Parser → Prop where
  | atEnd {parser : Parser} (ends : parser.isAtEnd = .ok true) : Skips parser [] parser
  | afterSemicolon {parser : Parser} {token : Token} (inside : parser.isAtEnd = .ok false)
      (before : parser.previous = .ok token) (semicolon : token.kind = .symbol .semicolon) :
      Skips parser [parser.position] parser
  | atStatement {parser : Parser} {token next : Token} (inside : parser.isAtEnd = .ok false)
      (before : parser.previous = .ok token) (other : token.kind ≠ .symbol .semicolon)
      (here : parser.current = .ok next) (starts : next.kind ∈ statementKinds) :
      Skips parser [parser.position] parser
  | onward {parser stepped moved : Parser} {token next : Token} {looks : List Nat}
      (inside : parser.isAtEnd = .ok false) (before : parser.previous = .ok token)
      (other : token.kind ≠ .symbol .semicolon) (here : parser.current = .ok next)
      (plain : next.kind ∉ statementKinds) (steps : parser.advance = (.ok next, stepped))
      (later : Skips stepped looks moved) : Skips parser (parser.position :: looks) moved

/-- The first token is passed over without a look. -/
inductive Synchronizes (parser : Parser) (looks : List Nat) (moved : Parser) : Prop where
  | passing {token : Token} {stepped : Parser} (first : parser.advance = (.ok token, stepped))
      (loop : Skips stepped looks moved)

theorem startsStatement_iff {kind : Kind} : kind.startsStatement = true ↔ kind ∈ statementKinds := by
  cases kind with
  | keyword k => cases k <;> decide
  | symbol _ | identifier | string | number | eof => simp [Kind.startsStatement, statementKinds]

section
variable {tokens rest : List Token} {position : Nat} {previous token : Token}

theorem boundary_succ_iff (before : tokens[position]? = some previous) (here : tokens[position + 1]? = some token) :
    Boundary tokens (position + 1) ↔
      token.kind = .eof ∨ previous.kind = .symbol .semicolon ∨ token.kind.startsStatement = true := by
  rw [startsStatement_iff]
  constructor
  · intro boundary
    cases boundary with
    | ending found kind =>
      cases here.symm.trans found
      exact .inl kind
    | semicolon found kind =>
      cases before.symm.trans found
      exact .inr (.inl kind)
    | statement found kind =>
      cases here.symm.trans found
      exact .inr (.inr kind)
  · rintro (kind | kind | kind)
    · exact .ending here kind
    · exact .semicolon before kind
    · exact .statement here kind

theorem drop_eq_cons (after : tokens.drop position = token :: rest) :
    tokens[position]? = some token ∧ tokens.drop (position + 1) = rest := by
  refine ⟨?_, ?_⟩
  · rw [← List.head?_drop, after]
    rfl
  · rw [← List.tail_drop, after]
    rfl

/-- Counting up to the next boundary leaves none out. -/
theorem beforeBoundary_least (before : tokens[position]? = some previous) (after : tokens.drop (position + 1) = rest)
    (ended : HasEnd rest) :
    ∃ count, Parser.beforeBoundary previous rest = (count, .ok ()) ∧
      IsLeast {p | position < p ∧ Boundary tokens p} (position + 1 + count) := by
  induction rest generalizing position previous with
  | nil => cases ended.choose_spec.1
  | cons token rest ih =>
    obtain ⟨here, further⟩ := drop_eq_cons after
    have next := boundary_succ_iff before here
    rw [Parser.beforeBoundary]
    split
    next stops =>
      refine ⟨0, rfl, ⟨by simp, next.mpr stops⟩, ?_⟩
      rintro p ⟨beyond, -⟩
      exact beyond
    next goes =>
      obtain ⟨count, found, ⟨beyond, boundary⟩, least⟩ := ih here further (ended.tail (fun kind => goes (.inl kind)))
      have place : position + 1 + 1 + count = position + 1 + (count + 1) := by omega
      rw [place] at beyond boundary least
      refine ⟨count + 1, by rw [found], ⟨Nat.lt_of_succ_lt beyond, boundary⟩, ?_⟩
      rintro p ⟨after, other⟩
      rcases Nat.eq_or_lt_of_le (Nat.succ_le_of_lt after) with rfl | further
      · exact absurd (next.mp other) goes
      · exact least ⟨further, other⟩

theorem current_eq (here : tokens[position]? = some token) : Parser.current ⟨tokens, position⟩ = .ok token := by
  rw [Parser.current, here]

theorem previous_eq (before : tokens[position]? = some token) :
    Parser.previous ⟨tokens, position + 1⟩ = .ok token := by
  rw [Parser.previous, if_neg (Nat.succ_ne_zero _), Nat.add_sub_cancel, before]

theorem isAtEnd_eq (here : tokens[position]? = some token) :
    Parser.isAtEnd ⟨tokens, position⟩ = .ok (decide (token.kind = .eof)) := by
  rw [Parser.isAtEnd, current_eq here]
  rfl

theorem advance_eq (here : tokens[position]? = some token) :
    Parser.advance ⟨tokens, position⟩ =
      (.ok token, if token.kind = .eof then ⟨tokens, position⟩ else ⟨tokens, position + 1⟩) := by
  rw [Parser.advance, current_eq here]

/-- The loop of a cursor goes as far as the count of tokens says. -/
theorem beforeBoundary_skips (before : tokens[position]? = some previous) (after : tokens.drop (position + 1) = rest)
    (ended : HasEnd rest) :
    ∃ looks, Skips ⟨tokens, position + 1⟩ looks
      ⟨tokens, position + 1 + (Parser.beforeBoundary previous rest).1⟩ := by
  induction rest generalizing position previous with
  | nil => cases ended.choose_spec.1
  | cons token rest ih =>
    obtain ⟨here, further⟩ := drop_eq_cons after
    have inside := isAtEnd_eq here
    have back := previous_eq before
    by_cases ending : token.kind = .eof
    · rw [Parser.beforeBoundary, if_pos (.inl ending)]
      rw [decide_eq_true ending] at inside
      exact ⟨_, .atEnd inside⟩
    rw [decide_eq_false ending] at inside
    by_cases semicolon : previous.kind = .symbol .semicolon
    · rw [Parser.beforeBoundary, if_pos (.inr (.inl semicolon))]
      exact ⟨_, .afterSemicolon inside back semicolon⟩
    by_cases starts : token.kind.startsStatement = true
    · rw [Parser.beforeBoundary, if_pos (.inr (.inr starts))]
      exact ⟨_, .atStatement inside back semicolon (current_eq here) (startsStatement_iff.mp starts)⟩
    obtain ⟨looks, later⟩ := ih here further (ended.tail ending)
    have steps := advance_eq here
    rw [if_neg ending] at steps
    rw [Parser.beforeBoundary, if_neg (by tauto)]
    have place (count : Nat) : position + 1 + (count + 1) = position + 1 + 1 + count := by omega
    rw [place]
    exact ⟨_, .onward inside back semicolon (current_eq here) (mt startsStatement_iff.mpr starts) steps later⟩

end

theorem Skips.unique {parser moved moved' : Parser} {looks looks' : List Nat} (skips : Skips parser looks moved)
    (again : Skips parser looks' moved') : looks = looks' ∧ moved = moved' := by
  induction skips generalizing looks' moved' with
  | atEnd ends =>
    cases again with
    | atEnd => exact ⟨rfl, rfl⟩
    | afterSemicolon inside | atStatement inside | onward inside => cases ends.symm.trans inside
  | afterSemicolon inside before semicolon =>
    cases again with
    | atEnd ends => cases ends.symm.trans inside
    | afterSemicolon => exact ⟨rfl, rfl⟩
    | atStatement _ found other | onward _ found other =>
      cases before.symm.trans found
      exact absurd semicolon other
  | atStatement inside before other here starts =>
    cases again with
    | atEnd ends => cases ends.symm.trans inside
    | afterSemicolon _ found semicolon =>
      cases before.symm.trans found
      exact absurd semicolon other
    | atStatement => exact ⟨rfl, rfl⟩
    | onward _ _ _ found plain =>
      cases here.symm.trans found
      exact absurd starts plain
  | onward inside before other here plain steps _ ih =>
    cases again with
    | atEnd ends => cases ends.symm.trans inside
    | afterSemicolon _ found semicolon =>
      cases before.symm.trans found
      exact absurd semicolon other
    | atStatement _ _ _ found starts =>
      cases here.symm.trans found
      exact absurd starts plain
    | onward _ _ _ _ _ steps' later =>
      cases steps.symm.trans steps'
      obtain ⟨rfl, rfl⟩ := ih later
      exact ⟨rfl, rfl⟩

theorem advance_position_le {parser stepped : Parser} {result : Except ParseFault Token}
    (steps : parser.advance = (result, stepped)) : parser.position ≤ stepped.position := by
  unfold Parser.advance at steps
  split at steps
  · cases steps
    exact Nat.le_refl _
  · cases steps
    split
    · exact Nat.le_refl _
    · exact Nat.le_succ _

theorem Skips.looks_pos {parser moved : Parser} {looks : List Nat} (skips : Skips parser looks moved)
    (later : 0 < parser.position) : ∀ look ∈ looks, 0 < look := by
  induction skips with
  | atEnd => exact nofun
  | afterSemicolon | atStatement => simpa using later
  | onward _ _ _ _ _ steps _ ih =>
    rw [List.forall_mem_cons]
    exact ⟨later, ih (Nat.lt_of_lt_of_le later (advance_position_le steps))⟩

section
variable {tokens : List Token} {position : Nat} {token : Token}

theorem synchronize_ending (here : tokens[position]? = some token) (kind : token.kind = .eof) :
    Parser.synchronize ⟨tokens, position⟩ = (.ok (), ⟨tokens, position⟩) := by
  obtain ⟨inside, rfl⟩ := List.getElem?_eq_some_iff.mp here
  rw [Parser.synchronize, Parser.ahead, List.drop_eq_getElem_cons inside]
  exact if_pos kind

theorem synchronize_eq (here : tokens[position]? = some token) (other : token.kind ≠ .eof) :
    Parser.synchronize ⟨tokens, position⟩ =
      ((Parser.beforeBoundary token (tokens.drop (position + 1))).2,
        ⟨tokens, position + 1 + (Parser.beforeBoundary token (tokens.drop (position + 1))).1⟩) := by
  obtain ⟨inside, rfl⟩ := List.getElem?_eq_some_iff.mp here
  rw [Parser.synchronize, Parser.ahead, List.drop_eq_getElem_cons inside]
  exact if_neg other

theorem hasEnd_drop_succ (here : tokens[position]? = some token) (other : token.kind ≠ .eof)
    (ended : HasEnd (tokens.drop position)) : HasEnd (tokens.drop (position + 1)) := by
  obtain ⟨inside, rfl⟩ := List.getElem?_eq_some_iff.mp here
  rw [List.drop_eq_getElem_cons inside] at ended
  exact ended.tail other

/-- Synchronizing stops at the nearest boundary after the current token. -/
theorem synchronize_least (here : tokens[position]? = some token) (other : token.kind ≠ .eof)
    (ended : HasEnd (tokens.drop position)) :
    ∃ boundary, Parser.synchronize ⟨tokens, position⟩ = (.ok (), ⟨tokens, boundary⟩) ∧
      IsLeast {p | position < p ∧ Boundary tokens p} boundary := by
  obtain ⟨count, found, least⟩ := beforeBoundary_least here rfl (hasEnd_drop_succ here other ended)
  refine ⟨_, ?_, least⟩
  rw [synchronize_eq here other, found]

/-- A cursor that synchronizes ends in one way, where synchronizing says, and looks back from no position but
those after the first. -/
theorem synchronizes_iff (here : tokens[position]? = some token) (ended : HasEnd (tokens.drop position)) :
    ∃ looks, (∀ look ∈ looks, 0 < look) ∧ ∀ looks' moved, Synchronizes ⟨tokens, position⟩ looks' moved ↔
      looks' = looks ∧ moved = (Parser.synchronize ⟨tokens, position⟩).2 := by
  have first := advance_eq here
  obtain ⟨looks, skips, positive⟩ : ∃ looks,
      Skips (Parser.advance ⟨tokens, position⟩).2 looks (Parser.synchronize ⟨tokens, position⟩).2 ∧
        ∀ look ∈ looks, 0 < look := by
    rw [first]
    by_cases kind : token.kind = .eof
    · have ends := isAtEnd_eq here
      rw [decide_eq_true kind] at ends
      rw [if_pos kind, synchronize_ending here kind]
      exact ⟨[], .atEnd ends, nofun⟩
    · obtain ⟨looks, skips⟩ := beforeBoundary_skips here rfl (hasEnd_drop_succ here kind ended)
      rw [if_neg kind, synchronize_eq here kind]
      exact ⟨looks, skips, skips.looks_pos (Nat.succ_pos position)⟩
  refine ⟨looks, positive, fun looks' moved => ⟨?_, ?_⟩⟩
  · rintro ⟨steps, loop⟩
    rw [steps] at skips
    obtain ⟨rfl, rfl⟩ := skips.unique loop
    exact ⟨rfl, rfl⟩
  · rintro ⟨rfl, rfl⟩
    rw [first] at skips
    exact .passing first skips

end

/-- The parser after a synchronization. -/
def recovered (parser : Parser) : Parser := parser.synchronize.2

section
variable {tokens : List Token} {position : Nat} {token : Token}

theorem Ended.ending_iff (ended : Ended tokens) (here : tokens[position]? = some token) :
    token.kind = .eof ↔ position = tokens.length - 1 := by
  obtain ⟨body, last, rfl, others, kind⟩ := ended
  rw [List.length_append, List.length_singleton, Nat.add_sub_cancel]
  rcases Nat.lt_or_ge position body.length with inside | beyond
  · rw [List.getElem?_append_left inside] at here
    exact iff_of_false (others token (List.mem_of_getElem? here)) (Nat.ne_of_lt inside)
  · rw [List.getElem?_append_right beyond, List.getElem?_singleton] at here
    split at here
    · cases here
      exact iff_of_true kind (by omega)
    · cases here

theorem Ended.hasEnd_drop (ended : Ended tokens) (here : tokens[position]? = some token) :
    HasEnd (tokens.drop position) := by
  obtain ⟨body, last, rfl, others, kind⟩ := ended
  have inside := (List.getElem?_eq_some_iff.mp here).1
  rw [List.length_append, List.length_singleton] at inside
  rw [List.drop_append_of_le_length (Nat.le_of_lt_succ inside)]
  exact ⟨last, by simp, kind⟩

theorem Boundary.inside (boundary : Boundary tokens position) (ended : Ended tokens) : position < tokens.length := by
  cases boundary with
  | ending here _ | statement here _ => exact (List.getElem?_eq_some_iff.mp here).1
  | @semicolon position token before kind =>
    have inside := (List.getElem?_eq_some_iff.mp before).1
    have other : token.kind ≠ .eof := by
      rw [kind]
      exact nofun
    have final := mt (ended.ending_iff before).mpr other
    omega

/-- From any position, synchronizing again and again comes to the boundaries that are ahead, one after the
other, and rests at the last of them. -/
theorem iterate_recovered (ended : Ended tokens) {later : List Nat} (here : tokens[position]? = some token)
    (sorted : later.Pairwise (· < ·)) (ahead : ∀ p, p ∈ later ↔ position < p ∧ Boundary tokens p) (n : Nat) :
    recovered^[n + 1] ⟨tokens, position⟩ = ⟨tokens, later.getD n (tokens.length - 1)⟩ := by
  induction later generalizing position token n with
  | nil =>
    have final : position = tokens.length - 1 := by
      by_contra inside
      have bound := (List.getElem?_eq_some_iff.mp here).1
      have last : tokens[tokens.length - 1]? = some tokens[tokens.length - 1] := List.getElem?_eq_getElem _
      have boundary := Boundary.ending last ((ended.ending_iff last).mpr rfl)
      exact List.not_mem_nil ((ahead _).mpr ⟨by omega, boundary⟩)
    have rests : recovered ⟨tokens, position⟩ = ⟨tokens, position⟩ :=
      congrArg Prod.snd (synchronize_ending here ((ended.ending_iff here).mpr final))
    rw [Function.iterate_fixed rests, List.getD_nil, ← final]
  | cons boundary later ih =>
    obtain ⟨beyond, stops⟩ := (ahead boundary).mp List.mem_cons_self
    have inside := stops.inside ended
    rw [List.pairwise_cons] at sorted
    have goes : recovered ⟨tokens, position⟩ = ⟨tokens, boundary⟩ := by
      have other := mt (ended.ending_iff here).mp (by omega)
      obtain ⟨nearest, found, member, least⟩ := synchronize_least here other (ended.hasEnd_drop here)
      rcases List.mem_cons.mp ((ahead nearest).mpr member) with rfl | further
      · exact congrArg Prod.snd found
      · exact absurd (least ⟨beyond, stops⟩) (Nat.not_le_of_lt (sorted.1 nearest further))
    rw [Function.iterate_succ_apply, goes]
    cases n with
    | zero => rfl
    | succ n =>
      refine ih (List.getElem?_eq_getElem inside) sorted.2 (fun p => ?_) n
      constructor
      · intro member
        exact ⟨sorted.1 p member, ((ahead p).mp (List.mem_cons_of_mem _ member)).2⟩
      · rintro ⟨further, boundary⟩
        rcases List.mem_cons.mp ((ahead p).mpr ⟨Nat.lt_trans beyond further, boundary⟩) with rfl | member
        · exact absurd further (Nat.lt_irrefl _)
        · exact member

end

/-- On tokens that end in their only end of input, synchronizing stays there, and from any other position it goes
to the nearest boundary. The cursor never looks back from the first token. Synchronizing again and again from the
start visits all boundaries after it, in order, and then stays at the end of input. -/
theorem synchronize_nearest_boundary (tokens : List Token) (ended : Ended tokens) :
    (∀ position token, tokens[position]? = some token →
      (token.kind = .eof → Parser.synchronize ⟨tokens, position⟩ = (.ok (), ⟨tokens, position⟩)) ∧
      (token.kind ≠ .eof → ∃ boundary, Parser.synchronize ⟨tokens, position⟩ = (.ok (), ⟨tokens, boundary⟩) ∧
        IsLeast {p | position < p ∧ Boundary tokens p} boundary) ∧
      ∃ looks, (∀ look ∈ looks, 0 < look) ∧ ∀ looks' moved, Synchronizes ⟨tokens, position⟩ looks' moved ↔
        looks' = looks ∧ moved = (Parser.synchronize ⟨tokens, position⟩).2) ∧
    ∃ boundaries : List Nat, boundaries.Pairwise (· < ·) ∧ (∀ p, p ∈ boundaries ↔ 0 < p ∧ Boundary tokens p) ∧
      ∀ n, recovered^[n + 1] { tokens } = ⟨tokens, boundaries.getD n (tokens.length - 1)⟩ := by
  constructor
  · intro position token here
    have beyond := ended.hasEnd_drop here
    exact ⟨synchronize_ending here, fun other => synchronize_least here other beyond, synchronizes_iff here beyond⟩
  · classical
    have ahead (p : Nat) : p ∈ (List.range tokens.length).filter (fun p => 0 < p ∧ Boundary tokens p) ↔
        0 < p ∧ Boundary tokens p := by
      rw [List.mem_filter, List.mem_range, decide_eq_true_eq]
      exact ⟨And.right, fun boundary => ⟨boundary.2.inside ended, boundary⟩⟩
    have sorted := (List.pairwise_lt_range (n := tokens.length)).filter fun p => 0 < p ∧ Boundary tokens p
    obtain ⟨first, rest, rfl⟩ := ended.hasEnd.exists_cons
    exact ⟨_, sorted, ahead, iterate_recovered ended rfl sorted ahead⟩

/-- The tokens of `a;; print x var`: two semicolons in a row, and a keyword right after them. -/
def clauses : List Token :=
  [⟨.identifier, "a", 1, .string "a"⟩, ⟨.symbol .semicolon, ";", 1, .nil⟩, ⟨.symbol .semicolon, ";", 1, .nil⟩,
    ⟨.keyword .print, "print", 1, .nil⟩, ⟨.identifier, "x", 1, .string "x"⟩, ⟨.keyword .var, "var", 1, .nil⟩, .eof 1]

theorem synchronize_clauses :
    Ended clauses ∧
    (Parser.synchronize ⟨clauses, 3⟩ = (.ok (), ⟨clauses, 5⟩) ∧ IsLeast {p | 3 < p ∧ Boundary clauses p} 5) ∧
    ∃ boundaries : List Nat, (∀ p, p ∈ boundaries ↔ 0 < p ∧ Boundary clauses p) ∧
      (List.range 5).map (fun n => boundaries.getD n 6) = [2, 3, 5, 6, 6] := by
  have ended : Ended clauses := ⟨clauses.dropLast, .eof 1, rfl, by simp [NoEnd, clauses], rfl⟩
  obtain ⟨each, boundaries, -, member, visits⟩ := synchronize_nearest_boundary clauses ended
  refine ⟨ended, ?_, boundaries, member, ?_⟩
  · obtain ⟨boundary, found, least⟩ := (each 3 _ rfl).2.1 (by decide)
    have stops : Parser.synchronize ⟨clauses, 3⟩ = (.ok (), ⟨clauses, 5⟩) := by decide
    cases found.symm.trans stops
    exact ⟨found, least⟩
  · have visited (n : Nat) : boundaries.getD n 6 = (recovered^[n + 1] { tokens := clauses }).position :=
      (congrArg Parser.position (visits n)).symm
    simp only [visited]
    decide

end Lox.Proofs
