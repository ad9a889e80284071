/-!
# Screens

What a command shows to a reader is a line with style tags, a table or a tree.  A screen turns each
of them into the characters that are written, and it alone knows which characters of a text would be
taken for a tag.  Nothing else in the shell depends on how it does that.
-/

namespace TreeStore.Shell

/-- Rows of cells under headings; all of them are texts with style tags. -/
structure Table where
  title : Option String := none
  header : List String
  rows : List (List String)
deriving DecidableEq, Inhabited, Repr

/-- A tree of texts with style tags. -/
inductive Branch where
  | node (label : String) (branches : List Branch)
deriving Inhabited

/-- How texts with style tags, tables and trees are written. -/
structure Screen where
  /-- The text protected from being read as tags. -/
  escape : String → String
  /-- What a text with tags looks like, whatever its length. -/
  line : String → String
  table : Table → List String
  tree : Branch → List String
deriving Inhabited

end TreeStore.Shell
