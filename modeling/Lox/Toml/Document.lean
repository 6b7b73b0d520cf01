import Lox.Toml.Lexical
import Lox.Toml.Table
import Lox.Text.Lines

/-! Whole TOML documents: values with values in them, key and value pairs, headers, and the
rules on what may be written twice. -/

namespace Lox.Toml

/-- Whether a value is an array or a table, which nothing may add to from outside. -/
def Value.isCompound : Value → Bool
  | .array _ | .table _ => true
  | _ => false

mutual

def value : Nat → List Char → Option (Value × List Char)
  | 0, _ => none
  | fuel + 1, text =>
    match text with
    | '"' :: _ | '\'' :: _ => (string text).map fun (s, rest) => (.string s, rest)
    | 't' :: 'r' :: 'u' :: 'e' :: rest => some (.boolean true, rest)
    | 'f' :: 'a' :: 'l' :: 's' :: 'e' :: rest => some (.boolean false, rest)
    | '[' :: rest => do
      let (items, rest) ← arrayItems fuel (← skipFiller rest.length rest)
      return (.array items, rest)
    | '{' :: rest =>
      match skipSpaces rest with
      | '}' :: rest => some (.table [], rest)
      | rest => do
        let (table, rest) ← inlineEntries fuel [] {} rest
        return (.table table, rest)
    | _ => scalar text

/-- The items of an array through its closing bracket; a comma may stand after the last. -/
def arrayItems : Nat → List Char → Option (List Value × List Char)
  | 0, _ => none
  | fuel + 1, text =>
    match text with
    | ']' :: rest => some ([], rest)
    | _ => do
      let (first, rest) ← value fuel text
      match ← skipFiller rest.length rest with
      | ']' :: rest => return ([first], rest)
      | ',' :: rest =>
        let (others, rest) ← arrayItems fuel (← skipFiller rest.length rest)
        return (first :: others, rest)
      | _ => none

/-- A key and its value on one line. -/
def pair : Nat → List Char → Option ((List String × Value) × List Char)
  | 0, _ => none
  | fuel + 1, text => do
    let (path, rest) ← key (text.length + 1) text
    let rest ← expect '=' rest
    let (v, rest) ← value fuel (skipSpaces rest)
    return ((path, v), rest)

/-- The entries of a table on one line, through its closing brace. -/
def inlineEntries : Nat → Table → Marks → List Char → Option (Table × List Char)
  | 0, _, _, _ => none
  | fuel + 1, table, marks, text => do
    let ((path, v), rest) ← pair fuel text
    if marks.isFrozen path then none
    else
      let table ← table.insertAt? false path.dropLast (path.getLast?.getD "") v
      match skipSpaces rest with
      | '}' :: rest => return (table, rest)
      | ',' :: rest =>
        let marks := if v.isCompound then marks.freeze path else marks
        inlineEntries fuel table marks (skipSpaces rest)
      | _ => none

end

/-- A document being read: what it holds so far, the table that pairs go to, and the tables
that dotted keys have opened since the last header. -/
structure Document where
  table : Table := []
  marks : Marks := {}
  header : Path := []
  pending : List Path := []

namespace Document

/-- How much a value in a text can nest and chain, generously. -/
def fuelFor (text : List Char) : Nat := 4 * text.length + 8

/-- A pair under the current header. Dotted keys may not reopen a table with a header of its
own. -/
def pair (doc : Document) (text : List Char) : Option (Document × List Char) := do
  let ((path, v), rest) ← Toml.pair (fuelFor text) text
  let parent := doc.header ++ path.dropLast
  let opened := (List.range (path.length - 1)).map fun n => doc.header ++ path.take (n + 1)
  if opened.any doc.marks.isClosed || doc.marks.isFrozen parent then none
  else
    let table ← doc.table.insertAt? true parent (path.getLast?.getD "") v
    let marks := if v.isCompound then doc.marks.freeze (doc.header ++ path) else doc.marks
    return ({ doc with table, marks, pending := doc.pending ++ opened }, rest)

/-- Closes the tables that dotted keys have opened. -/
def settle (doc : Document) : Document :=
  { doc with marks := doc.pending.foldl Marks.close doc.marks, pending := [] }

/-- The header of a table, after its bracket. -/
def tableHeader (doc : Document) (text : List Char) : Option (Document × List Char) := do
  let (path, rest) ← key (text.length + 1) (skipSpaces text)
  if doc.marks.isClosed path || doc.marks.isFrozen path then none
  else
    let table ← doc.table.update? true path some
    let rest ← expect ']' rest
    return ({ doc with table, marks := doc.marks.close path, header := path }, rest)

/-- The header of the next table of an array, after its two brackets. -/
def arrayHeader (doc : Document) (text : List Char) : Option (Document × List Char) := do
  let (path, rest) ← key (text.length + 1) (skipSpaces text)
  if doc.marks.isFrozen path then none
  else
    let table ← doc.table.appendAt? path
    let rest ← expect ']' (← expect ']' rest)
    return ({ doc with table, marks := (doc.marks.free path).close path, header := path }, rest)

/-- One statement, which may be empty, without its line end. -/
def statement (doc : Document) (text : List Char) : Option (Document × List Char) :=
  match text with
  | [] => some (doc, [])
  | '\n' :: _ | '#' :: _ => some (doc, text)
  | '[' :: '[' :: rest => doc.settle.arrayHeader rest
  | '[' :: rest => doc.settle.tableHeader rest
  | _ => doc.pair text

/-- Statements to the end of the text, one on a line. -/
def statements : Nat → Document → List Char → Option Table
  | 0, _, _ => none
  | fuel + 1, doc, text => do
    let (doc, rest) ← doc.statement (skipSpaces text)
    match ← skipComment (skipSpaces rest) with
    | [] => return doc.table
    | '\n' :: rest => statements fuel doc rest
    | _ => none

end Document

/-- Reads a document; nothing is said about what is wrong with a malformed one. -/
def parse? (text : List Char) : Option Table :=
  let text := Text.dropReturns text
  Document.statements (text.length + 1) {} text

end Lox.Toml
