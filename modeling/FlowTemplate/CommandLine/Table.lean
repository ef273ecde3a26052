/-
The table of the control flow that is left in a template: one row for each keyword, in a frame, with
the path above it and the number of rows below.
-/
import FlowTemplate.Unresolved

namespace FlowTemplate.CommandLine.Table

/-- A column: its heading, its cells, and whether they are flush with its right edge. -/
structure Column where
  heading : Text
  cells : List Text
  flushRight : Bool

/-- The columns for a list of keywords. -/
def columns (found : List Unresolved) : List Column :=
  [⟨"Line".toList, found.map fun item => Text.ofNat item.line, true⟩,
    ⟨"Col".toList, found.map fun item => Text.ofNat item.column, true⟩,
    ⟨"Block".toList, found.map fun item => '@' :: item.keyword, false⟩,
    ⟨"Text".toList, found.map (·.snippet), false⟩]

/-- The width of a column: that of its widest cell, the heading counted. -/
def Column.width (column : Column) : Nat :=
  column.cells.foldl (fun width cell => max width cell.length) column.heading.length

/-- Some spaces. -/
def spaces (n : Nat) : Text := List.replicate n ' '

/-- A cell filled up to the width of its column, with a space on each side. -/
def Column.pad (column : Column) (cell : Text) : Text :=
  let filling := spaces (column.width - cell.length)
  [' '] ++ (if column.flushRight then filling ++ cell else cell ++ filling) ++ [' ']

/-- A line of cells between vertical bars. -/
def row (bar : Char) (cells : List Text) : Text :=
  [bar] ++ Text.joinWith [bar] cells ++ [bar]

/-- A horizontal line of the frame. -/
def rule (left line crossing right : Char) (columns : List Column) : Text :=
  [left] ++ Text.joinWith [crossing]
    (columns.map fun column => List.replicate (column.width + 2) line) ++ [right]

/-- A text in the middle of a line, with the odd space on its right. -/
def centre (width : Nat) (text : Text) : Text :=
  let free := width - text.length
  spaces (free / 2) ++ text ++ spaces (free - free / 2)

/-- The lines of the table. -/
def lines (title : Text) (found : List Unresolved) : List Text :=
  let columns := columns found
  let top := rule '┏' '━' '┳' '┓' columns
  let rows := (List.range found.length).map fun n =>
    row '│' (columns.map fun column => column.pad (column.cells.getD n []))
  [centre top.length title, top, row '┃' (columns.map fun column => column.pad column.heading),
      rule '┡' '━' '╇' '┩' columns]
    ++ rows
    ++ [rule '└' '─' '┴' '┘' columns,
      Text.ofNat found.length ++ " unresolved block(s)".toList]

/-- The table as text. -/
def render (title : Text) (found : List Unresolved) : Text :=
  (lines title found).flatMap fun line => line ++ ['\n']

end FlowTemplate.CommandLine.Table
