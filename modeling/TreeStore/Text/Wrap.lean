import TreeStore.Text.Blank
import TreeStore.Text.Cluster
import TreeStore.Text.Lines

/-!
# Wrapping text into lines

A line takes as many words as fit.  A word has the blanks behind it with it, which need not fit: at
the end of a line they are cut.  A word that is too long for any line is spread over several, or cut
with an ellipsis, as the caller wants it.  Tabs become spaces before: they reach to the next column
that is a multiple of eight.
-/

namespace TreeStore.Text

/-! ### Tabs -/

/-- Goes through a text; `column` is where the characters since the last tab, which are in `part`,
the last one first, began. -/
def expandTabsFrom (column : Nat) (part : List Char) : List Char → List Char
  | [] => part.reverse
  | c :: cs =>
    if c = '\t' then
      let reached := column + cells (' ' :: part).reverse
      let stop := (reached + 7) / 8 * 8
      part.reverse ++ List.replicate (stop - reached + 1) ' ' ++ expandTabsFrom stop [] cs
    else if c = '\n' then part.reverse ++ c :: expandTabsFrom 0 [] cs
    else expandTabsFrom column (c :: part) cs

/-- The text with spaces in place of tabs. -/
def expandTabs (cs : List Char) : List Char := expandTabsFrom 0 [] cs

/-! ### Words -/

/-- The words from the one on whose characters so far are in `word`, the last one first.  It has
`begun` when one of them is no blank, and is `complete` when a blank came after that. -/
def wordsFrom (begun complete : Bool) (word : List Char) : List Char → List (List Char)
  | [] => [word.reverse]
  | c :: cs =>
    if complete && !isBlank c then word.reverse :: wordsFrom true false [c] cs
    else wordsFrom (begun || !isBlank c) (begun && isBlank c) (c :: word) cs

/-- The words of a line, each with the blanks behind it, the first also with those before it. -/
def wordsOf (cs : List Char) : List (List Char) := wordsFrom false false [] cs

/-! ### Lines -/

/-- What becomes of a word that is too long for a line. -/
inductive Overflow where
  /-- It goes on in the next line. -/
  | fold
  /-- It is cut, and an ellipsis takes its last cell. -/
  | ellipsis
deriving DecidableEq, Inhabited, Repr

/-- Puts words on lines of `room` cells; the words on the line that is being filled take `used`
cells. -/
def place (o : Overflow) (room used : Nat) (line : List Char) : List (List Char) → List (List Char)
  | [] => [line]
  | word :: words =>
    let size := cells (trimEnd word)
    let before := if line.isEmpty then [] else [line]
    if used + size ≤ room then place o room (used + cells word) (line ++ word) words
    else if o = .fold && room < size then
      let pieces := chop room word
      let last := pieces.getLast?.getD []
      before ++ pieces.dropLast ++ place o room (cells last) last words
    else before ++ place o room (cells word) word words

/-- The line without as many of the blanks at its end as it has characters too many. -/
def trimExcess (room : Nat) (line : List Char) : List Char :=
  line.take (max (trimEnd line).length (min room line.length))

/-- The line cut down to the room it has. -/
def Overflow.cut (o : Overflow) (room : Nat) (line : List Char) : List Char :=
  match o with
  | .fold => cutCells room line
  | .ellipsis => if cells line ≤ room then line else cutCells (room - 1) line ++ ['…']

/-- The lines that a text has between its line feeds, with an empty one behind the last. -/
def feedLines (cs : List Char) : List (List Char) := cutLines (· == '\n') (cs ++ ['\n'])

/-- The text on lines of at most `room` cells. -/
def wrap (o : Overflow) (room : Nat) (s : String) : List String :=
  (feedLines s.toList).flatMap fun line =>
    (place o room 0 [] (wordsOf (expandTabs line))).map fun l =>
      String.ofList (o.cut room (trimExcess room l))

end TreeStore.Text
