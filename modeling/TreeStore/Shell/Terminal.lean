import TreeStore.Shell.Markup
import TreeStore.Shell.Table

/-!
# The terminal

A terminal without colours shows a line with style tags as it is in plain text.  Tables and trees
keep to its width; a branch that would begin behind its right end is left out.
-/

namespace TreeStore.Shell

/-! ### Trees -/

/-- The cells that a guide takes. -/
def guideWidth : Nat := 4

/-- The lines of a label in the given width. -/
def labelLines (width : Nat) (label : String) : List String :=
  if width = 0 then [] else Text.wrap .fold width (Markup.plain label)

/-- Puts one guide before the first line and another one before the others. -/
def indent (first others : String) : List String → List String
  | [] => []
  | l :: ls => (first ++ l) :: ls.map (others ++ ·)

mutual
/-- The lines of a tree in the given width; without any width there are none. -/
def treeLines (width : Nat) : Branch → List String
  | .node label branches => labelLines width label ++ branchLines width branches

/-- The lines of siblings behind their guides; the last one hangs on a corner. -/
def branchLines (width : Nat) : List Branch → List String
  | [] => []
  | b :: bs =>
    let own := treeLines (width - guideWidth) b
    if bs.isEmpty then indent "└── " "    " own
    else indent "├── " "│   " own ++ branchLines width bs
end

/-! ### The screen -/

/-- The table without style tags. -/
def Table.plain (t : Table) : Table where
  title := t.title.map Markup.plain
  header := t.header.map Markup.plain
  rows := t.rows.map (·.map Markup.plain)

/-- The screen of a terminal without colours. -/
def Screen.terminal : Screen where
  escape := Markup.escape
  line := Markup.shown
  table t := t.plain.lines
  tree := treeLines screenWidth

end TreeStore.Shell
