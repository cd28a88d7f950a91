/-
Tables without lines between their columns.

Every column is as wide as its widest cell or its title, and two spaces
follow it; a rule of dashes stands under the titles.
-/
namespace GameArchive.Listing

/-- The title of a column, and whether its cells stand at its right edge. -/
structure ColumnStyle where
  title : String
  alignsRight : Bool
deriving DecidableEq, Repr

/-- `count` copies of a character. -/
def fill (c : Char) (count : Nat) : String := String.ofList (List.replicate count c)

/-- The space to the right of every cell. -/
def gap : String := "  "

/-- The width of a column with these cells. -/
def columnWidth (style : ColumnStyle) (cells : List String) : Nat :=
  (cells.map String.length).foldl max style.title.length

/-- A cell in its column. The cells of a last column that stand at the left
edge are not filled up. -/
def cellText (style : ColumnStyle) (isLast : Bool) (width : Nat) (cell : String) : String :=
  let space := fill ' ' (width - cell.length)
  if style.alignsRight then space ++ cell ++ gap
  else if isLast then cell ++ gap
  else cell ++ space ++ gap

/-- The cells of a row in their columns. -/
def rowCells : List (ColumnStyle × Nat) → List String → List String
  | [(style, width)], cell :: _ => [cellText style true width cell]
  | (style, width) :: rest, cell :: cells =>
    cellText style false width cell :: rowCells rest cells
  | _, _ => []

/-- The text of a row. -/
def rowText (columns : List (ColumnStyle × Nat)) (cells : List String) : String :=
  String.intercalate " " (rowCells columns cells) ++ "\n"

/-- The rule under the titles. -/
def ruleText (columns : List (ColumnStyle × Nat)) : String :=
  String.intercalate " " (columns.map fun (_, width) => fill '-' (width + gap.length)) ++ "\n"

/-- The cells of a column. -/
def cellsOf (column : Nat) (rows : List (List String)) : List String :=
  rows.map fun cells => cells.getD column ""

/-- The text of a table. -/
def tableText (styles : List ColumnStyle) (rows : List (List String)) : String :=
  let columns := styles.zipIdx.map fun (style, column) =>
    (style, columnWidth style (cellsOf column rows))
  rowText columns (styles.map ColumnStyle.title) ++ ruleText columns
    ++ String.join (rows.map (rowText columns))

end GameArchive.Listing
