import Lox.Proofs.ReadBack

/-! The prefix form of an expression can be read in one way only. Texts of literals hold nothing that
parts them, or are enclosed in quotes, and a literal can be had back from its text; so name and
operands of a node are found one after another, and the node is known by its name and their number. -/

namespace Lox.Proofs

/-- The values of literals that their texts tell apart. -/
def Plain : Value → Prop
  | .string s => '"' ∉ s.toList
  | .number x => x.IsSingle
  | .nil | .boolean _ => True

/-- The number that a text is of. -/
def readNumber : List Char → Number
  | ['N', 'a', 'N'] => .nan
  | ['i', 'n', 'f'] => .infinite false
  | '-' :: text => (readNumber text).neg
  | text => (Number.ofDecimal false (Decimal.ofNumeral text)).toSingle

/-- The value that a text without quotes is of. -/
def readAtom : List Char → Value
  | ['n', 'i', 'l'] => .nil
  | ['t', 'r', 'u', 'e'] => .boolean true
  | ['f', 'a', 'l', 's', 'e'] => .boolean false
  | text => .number (readNumber text)

theorem readNumber_numeral {text : List Char} (numeral : Numeral text) :
    readNumber text = (Number.ofDecimal false (Decimal.ofNumeral text)).toSingle := by
  obtain ⟨first, more, rfl, digit⟩ := numeral.exists_digit
  unfold readNumber
  split
  next same => cases same; cases digit
  next same => cases same; cases digit
  next same => cases same; cases digit
  next => rfl

theorem readNumber_unsigned {units : Nat} (single : (Number.finite false units).IsSingle) :
    readNumber (Number.finite false units).text.toList = .finite false units := by
  obtain ⟨numeral, text, member, reads⟩ := text_reads single
  rw [text, String.toList_ofList, readNumber_numeral member, reads]

theorem readNumber_negative (text : List Char) : readNumber ('-' :: text) = (readNumber text).neg := rfl

theorem text_signed (units : Nat) :
    (Number.finite true units).text.toList = '-' :: (Number.finite false units).text.toList := by
  rw [text_negative, String.toList_append]
  rfl

theorem readNumber_text {x : Number} (single : x.IsSingle) : readNumber x.text.toList = x := by
  cases x with
  | nan => rfl
  | infinite negative => cases negative <;> rfl
  | finite negative units =>
    cases negative with
    | false => exact readNumber_unsigned single
    | true =>
      have positive : (Number.finite false units).IsSingle := isSingle_magnitude single
      rw [text_signed, readNumber_negative, readNumber_unsigned positive, Number.neg]
      rfl

/-- A text that is not empty, with all its characters of a class. -/
def MadeOf (property : Char → Prop) (text : List Char) : Prop := text ≠ [] ∧ ∀ c ∈ text, property c

instance {property : Char → Prop} [DecidablePred property] : DecidablePred (MadeOf property) := fun text =>
  decidable_of_iff (text.isEmpty = false ∧ text.all (fun c => decide (property c)) = true) (by simp [MadeOf])

/-- The characters of numerals and of the words for numbers that have none. -/
def NumberChar (c : Char) : Prop := Digit c ∨ c ∈ ['-', '.', 'N', 'a', 'f', 'i', 'n']

instance : DecidablePred NumberChar := fun _ => inferInstanceAs (Decidable (_ ∨ _))

theorem text_chars {x : Number} (single : x.IsSingle) : MadeOf NumberChar x.text.toList := by
  have unsigned {units : Nat} (single : (Number.finite false units).IsSingle) :
      MadeOf NumberChar (Number.finite false units).text.toList := by
    obtain ⟨numeral, text, member, -⟩ := text_reads single
    obtain ⟨first, more, same, -⟩ := member.exists_digit
    rw [text, String.toList_ofList]
    refine ⟨by rw [same]; exact List.cons_ne_nil _ _, fun c inside => ?_⟩
    rcases member.chars c inside with digit | rfl
    · exact .inl digit
    · decide
  cases x with
  | nan => exact (by decide : MadeOf NumberChar "NaN".toList)
  | infinite negative =>
    cases negative with
    | false => exact (by decide : MadeOf NumberChar "inf".toList)
    | true => exact (by decide : MadeOf NumberChar "-inf".toList)
  | finite negative units =>
    cases negative with
    | false => exact unsigned single
    | true =>
      have positive : (Number.finite false units).IsSingle := isSingle_magnitude single
      rw [text_signed]
      exact ⟨List.cons_ne_nil _ _, List.forall_mem_cons.mpr ⟨by decide, (unsigned positive).2⟩⟩

theorem readAtom_number {text : List Char} (chars : ∀ c ∈ text, NumberChar c) :
    readAtom text = .number (readNumber text) := by
  unfold readAtom
  split
  · exact absurd (chars 'l' (by decide)) (by decide)
  · exact absurd (chars 't' (by decide)) (by decide)
  · exact absurd (chars 'l' (by decide)) (by decide)
  · rfl

/-- The characters that part a text in prefix form. -/
def Parting (c : Char) : Prop := c = ' ' ∨ c = '(' ∨ c = ')' ∨ c = '"'

instance : DecidablePred Parting := fun _ => inferInstanceAs (Decidable (_ ∨ _ ∨ _ ∨ _))

theorem NumberChar.not_parting {c : Char} (char : NumberChar c) : ¬ Parting c := by
  rintro (rfl | rfl | rfl | rfl) <;> exact absurd char (by decide)

def Unparted (text : List Char) : Prop := MadeOf (fun c => ¬ Parting c) text

instance : DecidablePred Unparted := fun text => inferInstanceAs (Decidable (MadeOf _ text))

section
variable {run run' rest rest' : List Char} {value other : Value}

/-- A run of characters of a class that ends where one of another class stands, or the text itself
ends, is the only such run. -/
theorem span_unique {p : Char → Bool} (all : ∀ c ∈ run, p c = true) (all' : ∀ c ∈ run', p c = true)
    (stop : ∀ c, rest.head? = some c → p c = false) (stop' : ∀ c, rest'.head? = some c → p c = false)
    (same : run ++ rest = run' ++ rest') : run = run' ∧ rest = rest' := by
  obtain ⟨taken, left⟩ := span_eq all stop
  obtain ⟨taken', left'⟩ := span_eq all' stop'
  rw [same] at taken left
  exact ⟨taken.symm.trans taken', left.symm.trans left'⟩

theorem Unparted.unique (whole : Unparted run) (whole' : Unparted run') (apart : Apart rest) (apart' : Apart rest')
    (same : run ++ rest = run' ++ rest') : run = run' ∧ rest = rest' := by
  have stop {rest : List Char} (apart : Apart rest) (c : Char) (head : rest.head? = some c) :
      decide (¬ Parting c) = false := by
    rcases apart c head with rfl | rfl <;> decide
  exact span_unique (fun c member => decide_eq_true (whole.2 c member))
    (fun c member => decide_eq_true (whole'.2 c member)) (stop apart) (stop apart') same

/-- A literal other than a string can be had back from its text, which nothing parts. -/
theorem atom_text (plain : Plain value) (bare : value.type ≠ .string) :
    Unparted (Expr.literalText value).toList ∧ readAtom (Expr.literalText value).toList = value := by
  cases value with
  | nil => exact ⟨(by decide : Unparted "nil".toList), rfl⟩
  | boolean b =>
    cases b with
    | false => exact ⟨(by decide : Unparted "false".toList), rfl⟩
    | true => exact ⟨(by decide : Unparted "true".toList), rfl⟩
  | string s => exact absurd rfl bare
  | number x =>
    obtain ⟨some, chars⟩ := text_chars plain
    refine ⟨⟨some, fun c member => (chars c member).not_parting⟩, ?_⟩
    exact (readAtom_number chars).trans (congrArg Value.number (readNumber_text plain))

theorem string_text (s : String) (rest : List Char) :
    (Expr.literalText (.string s)).toList ++ rest = '"' :: (s.toList ++ '"' :: rest) := by
  simp [Expr.literalText]

theorem literal_head (plain : Plain value) (rest : List Char) :
    ∃ c more, (Expr.literalText value).toList ++ rest = c :: more ∧ c ≠ '(' ∧ (c = '"' ↔ value.type = .string) := by
  by_cases quoted : value.type = .string
  · cases value with
    | string s => exact ⟨'"', _, string_text s rest, by decide, iff_of_true rfl rfl⟩
    | nil | boolean _ | number _ => cases quoted
  · obtain ⟨⟨some, whole⟩, -⟩ := atom_text plain quoted
    obtain ⟨c, more, same⟩ := List.exists_cons_of_ne_nil some
    have first : ¬ Parting c := whole c (by rw [same]; exact List.mem_cons_self)
    refine ⟨c, more ++ rest, by rw [same]; rfl, ?_, iff_of_false ?_ quoted⟩
    · exact fun paren => first (.inr (.inl paren))
    · exact fun quote => first (.inr (.inr (.inr quote)))

theorem quoted_unique {s t : String} (unquoted : '"' ∉ s.toList) (unquoted' : '"' ∉ t.toList)
    (same : s.toList ++ '"' :: rest = t.toList ++ '"' :: rest') : s = t ∧ rest = rest' := by
  have inside {text : List Char} (unquoted : '"' ∉ text) (c : Char) (member : c ∈ text) : (c != '"') = true :=
    bne_iff_ne.mpr fun quote => unquoted (quote ▸ member)
  have quote (rest : List Char) (c : Char) (head : ('"' :: rest).head? = some c) : (c != '"') = false := by
    rw [← Option.some.inj head]
    decide
  obtain ⟨text, left⟩ := span_unique (inside unquoted) (inside unquoted') (quote rest) (quote rest') same
  exact ⟨String.toList_inj.mp text, (List.cons.inj left).2⟩

theorem literal_unique (plain : Plain value) (plain' : Plain other) (apart : Apart rest) (apart' : Apart rest')
    (same : (Expr.literalText value).toList ++ rest = (Expr.literalText other).toList ++ rest') :
    value = other ∧ rest = rest' := by
  obtain ⟨c, more, head, -, quoted⟩ := literal_head plain rest
  obtain ⟨c', more', head', -, quoted'⟩ := literal_head plain' rest'
  obtain rfl : c = c' := (List.cons.inj (head.symm.trans (same.trans head'))).1
  by_cases quote : c = '"'
  · match value, other, quoted.mp quote, quoted'.mp quote with
    | .string s, .string t, _, _ =>
      rw [string_text, string_text] at same
      obtain ⟨rfl, left⟩ := quoted_unique plain plain' (List.cons.inj same).2
      exact ⟨rfl, left⟩
  · obtain ⟨whole, read⟩ := atom_text plain (mt quoted.mpr quote)
    obtain ⟨whole', read'⟩ := atom_text plain' (mt quoted'.mpr quote)
    obtain ⟨text, left⟩ := whole.unique whole' apart apart' same
    exact ⟨read.symm.trans ((congrArg readAtom text).trans read'), left⟩

end

/-- The name and the operands of a node that stands in parentheses. -/
def node? : Expr → Option (String × List Expr)
  | .literal _ => none
  | .unary op operand _ => some (op.symbol, [operand])
  | .binary op left right _ => some (op.symbol, [left, right])
  | .grouping inner => some ("group", [inner])

/-- The node of this name, on no particular line. -/
def assemble (name : String) : List Expr → Option Expr
  | [operand] =>
    if name = "group" then some (.grouping operand)
    else (UnaryOp.all.find? (·.symbol == name)).map fun op => .unary op operand 0
  | [left, right] => (BinaryOp.all.find? (·.symbol == name)).map fun op => .binary op left right 0
  | _ => none

def spaced (operands : List Expr) : List Char :=
  operands.flatMap fun operand => ' ' :: operand.prefixText.toList

section
variable {expr other : Expr} {name name' : String} {operands operands' : List Expr} {rest rest' : List Char}

theorem exists_literal (leaf : node? expr = none) : ∃ value, expr = .literal value := by
  cases expr with
  | literal value => exact ⟨value, rfl⟩
  | unary _ _ _ | binary _ _ _ _ | grouping _ => cases leaf

theorem prefixText_node (node : node? expr = some (name, operands)) (rest : List Char) :
    expr.prefixText.toList ++ rest = '(' :: (name.toList ++ (spaced operands ++ ')' :: rest)) := by
  cases expr with
  | literal _ => cases node
  | unary _ _ _ | binary _ _ _ _ | grouping _ =>
    cases node
    simp [Expr.prefixText, spaced]

theorem name_unparted (node : node? expr = some (name, operands)) : Unparted name.toList := by
  cases expr with
  | literal _ => cases node
  | unary op _ _ =>
    cases node
    cases op <;> decide
  | binary op _ _ _ =>
    cases node
    cases op <;> decide
  | grouping _ =>
    cases node
    decide

theorem literals_node {property : Value → Prop} (node : node? expr = some (name, operands))
    (literals : Literals property expr) : ∀ operand ∈ operands, Literals property operand := by
  cases expr with
  | literal _ => cases node
  | unary _ _ _ | binary _ _ _ _ | grouping _ =>
    cases node
    simpa [Literals] using literals

/-- Name and operands make the node. A sign and an operator of one name differ in their operands. -/
theorem assemble_node (node : node? expr = some (name, operands)) :
    assemble name (operands.map eraseLines) = some (eraseLines expr) := by
  cases expr with
  | literal _ => cases node
  | unary op _ _ =>
    cases node
    cases op <;> rfl
  | binary op _ _ _ =>
    cases node
    cases op <;> rfl
  | grouping _ =>
    cases node
    rfl

theorem apart_spaced (operands : List Expr) (rest : List Char) : Apart (spaced operands ++ ')' :: rest) := by
  intro c head
  cases operands with
  | nil => exact .inr (Option.some.inj head).symm
  | cons operand operands => exact .inl (Option.some.inj head).symm

/-- However the text goes on, it begins with the tree in one way only. -/
def Unique (expr : Expr) : Prop :=
  ∀ other rest rest', Literals Plain other → Apart rest → Apart rest' →
    expr.prefixText.toList ++ rest = other.prefixText.toList ++ rest' →
    eraseLines expr = eraseLines other ∧ rest = rest'

theorem spaced_unique (each : ∀ operand ∈ operands, Unique operand)
    (plain : ∀ operand ∈ operands', Literals Plain operand)
    (same : spaced operands ++ ')' :: rest = spaced operands' ++ ')' :: rest') :
    operands.map eraseLines = operands'.map eraseLines ∧ rest = rest' := by
  induction operands generalizing operands' with
  | nil =>
    cases operands' with
    | nil => exact ⟨rfl, (List.cons.inj same).2⟩
    | cons _ _ => exact absurd (List.cons.inj same).1 (by decide)
  | cons operand operands ih =>
    cases operands' with
    | nil => exact absurd (List.cons.inj same).1 (by decide)
    | cons operand' operands' =>
      rw [List.forall_mem_cons] at each plain
      simp only [spaced, List.flatMap_cons, List.cons_append, List.append_assoc] at same
      obtain ⟨first, later⟩ := each.1 operand' _ _ plain.1 (apart_spaced operands rest)
        (apart_spaced operands' rest') (List.cons.inj same).2
      obtain ⟨others, left⟩ := ih each.2 plain.2 later
      exact ⟨by rw [List.map_cons, List.map_cons, first, others], left⟩

theorem node_unique (node : node? expr = some (name, operands)) (each : ∀ operand ∈ operands, Unique operand) :
    Unique expr := by
  intro other rest rest' plain apart apart' same
  rw [prefixText_node node] at same
  cases node' : node? other with
  | none =>
    obtain ⟨value, rfl⟩ := exists_literal node'
    obtain ⟨c, more, head, paren, -⟩ := literal_head plain rest'
    exact absurd (List.cons.inj (same.trans head)).1.symm paren
  | some found =>
    obtain ⟨name', operands'⟩ := found
    rw [prefixText_node node'] at same
    obtain ⟨names, text⟩ := (name_unparted node).unique (name_unparted node') (apart_spaced operands rest)
      (apart_spaced operands' rest') (List.cons.inj same).2
    obtain ⟨parts, left⟩ := spaced_unique each (literals_node node' plain) text
    have whole := assemble_node node'
    rw [← String.toList_inj.mp names, ← parts, assemble_node node] at whole
    exact ⟨Option.some.inj whole, left⟩

theorem prefixText_unique (plain : Literals Plain expr) : Unique expr := by
  induction expr with
  | literal value =>
    intro other rest rest' plain' apart apart' same
    cases node' : node? other with
    | none =>
      obtain ⟨value', rfl⟩ := exists_literal node'
      obtain ⟨rfl, left⟩ := literal_unique plain plain' apart apart' same
      exact ⟨rfl, left⟩
    | some found =>
      rw [prefixText_node node'] at same
      obtain ⟨c, more, head, paren, -⟩ := literal_head plain rest
      exact absurd (List.cons.inj (head.symm.trans same)).1 paren
  | unary op operand line ih => exact node_unique rfl (by simpa using ih plain)
  | binary op left right line ihLeft ihRight =>
    exact node_unique rfl (by simpa using ⟨ihLeft plain.1, ihRight plain.2⟩)
  | grouping inner ih => exact node_unique rfl (by simpa using ih plain)

end

theorem prefixText_eraseLines (expr : Expr) : (eraseLines expr).prefixText = expr.prefixText := by
  induction expr with
  | literal _ => rfl
  | unary _ _ _ ih => rw [eraseLines, Expr.prefixText, Expr.prefixText, ih]
  | binary _ _ _ _ ihLeft ihRight => rw [eraseLines, Expr.prefixText, Expr.prefixText, ihLeft, ihRight]
  | grouping _ ih => rw [eraseLines, Expr.prefixText, Expr.prefixText, ih]

/-- Trees have one text in prefix form exactly if they differ in nothing but their lines. -/
theorem prefixText_eq_iff (first second : Expr) (plain : Literals Plain first) (plain' : Literals Plain second) :
    first.prefixText = second.prefixText ↔ eraseLines first = eraseLines second := by
  constructor
  · intro same
    have apart : Apart [] := by
      intro c head
      cases head
    have texts : first.prefixText.toList ++ [] = second.prefixText.toList ++ [] := by rw [same]
    exact (prefixText_unique plain second [] [] plain' apart apart texts).1
  · intro same
    rw [← prefixText_eraseLines first, same, prefixText_eraseLines]

/-- A difference with a string whose text looks like the end of the tree and the beginning of another. -/
def mimicry (subtrahend : Expr) (line : Int) : Expr :=
  .binary .minus (.literal (.string "1) (- 2")) subtrahend line

/-- The literal of negative zero, and zero with a sign before it. -/
theorem prefixText_mimicry :
    Literals Plain (mimicry (.literal (.number (.finite true 0))) 1) ∧
      Literals Plain (mimicry (.unary .negate (.literal (.number (.finite false 0))) 2) 2) ∧
      (mimicry (.literal (.number (.finite true 0))) 1).prefixText =
        (mimicry (.literal (.number (.finite true 0))) 2).prefixText ∧
      (mimicry (.literal (.number (.finite true 0))) 1).prefixText ≠
        (mimicry (.unary .negate (.literal (.number (.finite false 0))) 2) 2).prefixText := by
  have string : Plain (.string "1) (- 2") := (by decide : '"' ∉ "1) (- 2".toList)
  have negative : Plain (.number (.finite true 0)) := (by decide +kernel : (Number.finite true 0).IsSingle)
  have zero : Plain (.number (.finite false 0)) := (by decide +kernel : (Number.finite false 0).IsSingle)
  have literal (line : Int) : Literals Plain (mimicry (.literal (.number (.finite true 0))) line) :=
    ⟨string, negative⟩
  have signed : Literals Plain (mimicry (.unary .negate (.literal (.number (.finite false 0))) 2) 2) :=
    ⟨string, zero⟩
  refine ⟨literal 1, signed, (prefixText_eq_iff _ _ (literal 1) (literal 2)).mpr rfl, ?_⟩
  intro same
  have erased := (prefixText_eq_iff _ _ (literal 1) signed).mp same
  exact absurd erased (by decide)

end Lox.Proofs
