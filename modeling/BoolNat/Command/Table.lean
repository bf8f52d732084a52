set_option autoImplicit false

/-! # Tables

A table drawn with lines: a title centred over it, a heading between heavy lines, and
the rows.  A column is as wide as its longest entry, with a blank on either side.
-/

namespace BoolNat

/-- A column: its heading, and whether its cells stand at the left. -/
structure Column where
  heading : String
  isLeft : Bool
  deriving DecidableEq, Repr, Inhabited

structure Table where
  title : String
  columns : List Column
  rows : List (List String)
  deriving DecidableEq, Repr, Inhabited

namespace Table

def blanks (n : Nat) : String := String.ofList (List.replicate n ' ')

/-- The width of the column number `i`. -/
def columnWidth (table : Table) (i : Nat) (column : Column) : Nat :=
  (table.rows.map fun row => (row.getD i "").length).foldl max column.heading.length

def measured (table : Table) : List (Column × Nat) :=
  table.columns.mapIdx fun i column => (column, table.columnWidth i column)

def width (table : Table) : Nat :=
  table.measured.foldr (fun entry n => entry.2 + 3 + n) 1

def cell (column : Column) (width : Nat) (text : String) : String :=
  let fill := blanks (width - text.length)
  " " ++ (if column.isLeft then text ++ fill else fill ++ text) ++ " "

/-- A line of cells between bars. -/
def line (bar : String) (columns : List (Column × Nat)) (cells : List String) : String :=
  bar ++ String.join ((columns.zip cells).map fun entry =>
    cell entry.1.1 entry.1.2 entry.2 ++ bar)

/-- A rule across the table, with its left end, its inner joints and its right end. -/
def rule (left joint right : String) (dash : Char) (columns : List (Column × Nat)) : String :=
  left ++ joint.intercalate (columns.map fun entry =>
    String.ofList (List.replicate (entry.2 + 2) dash)) ++ right

def lines (table : Table) : List String :=
  let columns := table.measured
  [blanks ((table.width - table.title.length) / 2) ++ table.title,
    rule "┏" "┳" "┓" '━' columns,
    line "┃" columns (table.columns.map (·.heading)),
    rule "┡" "╇" "┩" '━' columns] ++
  table.rows.map (line "│" columns) ++
  [rule "└" "┴" "┘" '─' columns]

end Table

end BoolNat
