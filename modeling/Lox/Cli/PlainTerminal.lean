import Lox.Cli.Console
import Lox.Text.Columns
import Lox.Text.Lines

/-! A terminal without colours that is as wide as it has to be. Tabs are expanded, characters that
would move the cursor are dropped, and a table stands in a box under its title. -/

namespace Lox.Cli

namespace PlainTerminal

/-- Bell, backspace, vertical tab, form feed and carriage return move the cursor, and are not
printed. -/
def isDropped (c : Char) : Bool := [0x07, 0x08, 0x0b, 0x0c, 0x0d].contains c.toNat

/-- The text before a tab with the spaces that the tab stands for: one, and as many more as reach
a multiple of eight columns. -/
def padToStop (piece : List Char) : List Char :=
  let spaced := piece ++ [' ']
  spaced ++ List.replicate ((8 - Text.width spaced % 8) % 8) ' '

/-- A line from its pieces between tabs. Every piece but the last ends at a tab stop, so each is
measured by itself. -/
def expandTabs : List (List Char) → List Char
  | [] => []
  | [last] => last
  | piece :: rest => padToStop piece ++ expandTabs rest

/-- A text, line by line. -/
def shown (text : String) : String :=
  let lines := Text.pieces '\n' (text.toList.filter fun c => !isDropped c)
  String.ofList (['\n'].intercalate (lines.map fun line => expandTabs (Text.pieces '\t' line)))

/-- A cell: one or more lines of text. -/
abbrev Cell := List (List Char)

def cell (text : String) : Cell :=
  Text.pieces '\n' (text.toList.filter fun c => !isDropped c)

def cellWidth (c : Cell) : Nat := (c.map Text.width).foldl max 0

/-- The width of each column: that of its widest line. -/
def widths (columns : List Column) (rows : List (List Cell)) : List Nat :=
  rows.foldl (fun widest row => widest.zipWith max (row.map cellWidth))
    (columns.map fun column => Text.width column.heading.toList)

def spaces (n : Nat) : List Char := List.replicate n ' '

/-- A line of a cell in its column. -/
def aligned (column : Column) (width : Nat) (line : List Char) : List Char :=
  let padding := spaces (width - Text.width line)
  if column.flushRight then padding ++ line else line ++ padding

/-- A horizontal rule with the given ends, joints and dashes. -/
def rule (left joint right dash : Char) (widths : List Nat) : List Char :=
  left :: [joint].intercalate (widths.map fun width => List.replicate (width + 2) dash) ++ [right]

/-- One line across all columns between the given bars. -/
def across (bar : Char) (columns : List Column) (widths : List Nat) (lines : List (List Char)) :
    List Char :=
  let field (column : Column) (width : Nat) (line : List Char) : List Char :=
    bar :: ' ' :: aligned column width line ++ [' ']
  ((columns.zip (widths.zip lines)).flatMap fun (column, width, line) => field column width line)
    ++ [bar]

/-- The lines of a row: as many as its tallest cell has. -/
def rowLines (columns : List Column) (widths : List Nat) (row : List Cell) : List (List Char) :=
  let height := (row.map List.length).foldl max 0
  (List.range height).map fun n => across '│' columns widths (row.map fun lines => lines[n]?.getD [])

/-- The title in the middle of the table's width, an odd space on its right. -/
def title (text : List Char) (widths : List Nat) : List Char :=
  let total := widths.foldl (fun total width => total + width + 3) 1
  let left := (total - text.length) / 2
  spaces left ++ text ++ spaces (total - text.length - left)

def lines (table : Table) : List (List Char) :=
  let rows := table.rows.map fun row => row.map cell
  let columns := table.columns
  let widths := widths columns rows
  let headings := columns.map fun column => column.heading.toList
  [title table.title.toList widths, rule '┏' '┳' '┓' '━' widths, across '┃' columns widths headings,
    rule '┡' '╇' '┩' '━' widths] ++ rows.flatMap (rowLines columns widths)
    ++ [rule '└' '┴' '┘' '─' widths]

def drawn (table : Table) : String := String.ofList ((lines table).flatMap (· ++ ['\n']))

end PlainTerminal

def Terminal.plain : Terminal := ⟨PlainTerminal.shown, PlainTerminal.drawn⟩

end Lox.Cli
