import TreeStore.Shell.Screen
import TreeStore.Text.Wrap

/-!
# Tables on the terminal

A table has a row of headings and rows of cells between box-drawing borders, the heading between
heavy ones.  A column is as wide as its widest cell, with a space on either side, as long as the
table fits the screen; else the widest columns are cut down to a common width.  The text of a cell
starts at the left and is wrapped where it does not fit.  A title stands above the table in the
middle; of an odd space the larger part is behind it.
-/

namespace TreeStore.Shell

/-- The cells in a line of the screen. -/
def screenWidth : Nat := 400

namespace Table

/-- Spaces. -/
def blank (n : Nat) : String := String.ofList (List.replicate n ' ')

/-- The cells that a text takes when only its own line boundaries break it; a tab takes none. -/
def naturalWidth (s : String) : Nat := ((Text.splitLines s).map Text.displayWidth).foldl max 0

/-- The width of each column as far as its cells want it. -/
def wanted (t : Table) : List Nat :=
  t.rows.foldl (fun ws row => ws.zipWith max (row.map naturalWidth)) (t.header.map naturalWidth)

/-- The widths with all above a common bound cut down to it; the bound is the largest with which
they fit the room together. -/
def cutDown (room : Nat) (widths : List Nat) : List Nat :=
  let fits (bound : Nat) : Bool := widths.foldl (fun n w => n + min w bound) 0 ≤ room
  widths.map (min (((List.range (room + 1)).reverse.find? fits).getD 0))

/-- The cells that the borders and the spaces beside them take. -/
def frameWidth (columns : Nat) : Nat := 3 * columns + 1

/-- The width of each column. -/
def widths (t : Table) : List Nat :=
  cutDown (screenWidth - frameWidth t.header.length) t.wanted

/-- The width of the whole table. -/
def width (t : Table) : Nat := t.widths.foldl (· + ·) (frameWidth t.header.length)

/-! ### Lines -/

/-- A line with as many spaces behind it as it lacks cells. -/
def fill (width : Nat) (line : String) : String := line ++ blank (width - Text.displayWidth line)

/-- A line of a cell filled up to the width of its column.  Where the line ends with a joiner, which
hides the first space, another one makes up for it. -/
def pad (width : Nat) (line : String) : String := fill width (fill width line)

/-- The characters of a horizontal border. -/
structure Border where
  left : String
  line : Char
  crossing : String
  right : String

/-- A border over columns of the given widths. -/
def Border.draw (b : Border) (widths : List Nat) : String :=
  let spans := widths.map fun w => String.ofList (List.replicate (w + 2) b.line)
  b.left ++ b.crossing.intercalate spans ++ b.right

/-- The border above the headings. -/
def top : Border := ⟨"┏", '━', "┳", "┓"⟩

/-- The border below the headings. -/
def underHeader : Border := ⟨"┡", '━', "╇", "┩"⟩

/-- The border below the last row. -/
def bottom : Border := ⟨"└", '─', "┴", "┘"⟩

/-- A row between bars, as high as its highest cell. -/
def row (bar : String) (widths : List Nat) (cells : List String) : List String :=
  let blocks := widths.zipWith (Text.wrap .ellipsis) cells
  let height := (blocks.map List.length).foldl max 0
  (List.range height).map fun i =>
    let line := widths.zipWith (fun w block => pad w (block.getD i "")) blocks
    bar ++ " " ++ (" " ++ bar ++ " ").intercalate line ++ " " ++ bar

/-- A text in the middle of a line; blanks at its end do not count. -/
def centre (width : Nat) (text : String) : String :=
  let text := String.ofList (Text.trimEnd text.toList)
  let space := width - Text.displayWidth text
  blank (space / 2) ++ text ++ blank (space - space / 2)

/-- The lines of the title above the table. -/
def titleLines (t : Table) : List String :=
  match t.title with
  | some title => (Text.wrap .fold t.width title).map (centre t.width)
  | none => []

/-- The lines of the table. -/
def lines (t : Table) : List String :=
  let ws := t.widths
  t.titleLines ++ [top.draw ws] ++ row "┃" ws t.header ++ [underHeader.draw ws] ++
    t.rows.flatMap (row "│" ws) ++ [bottom.draw ws]

end Table

end TreeStore.Shell
