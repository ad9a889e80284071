import TreeStore.Text.Emoji
import TreeStore.Text.Wrap

/-!
# Text with style tags

A style tag is a pair of brackets around a text that starts with a lower-case letter, `#`, `/` or
`@` and has no opening bracket in it.  `escape` protects a text from being read as tags: it doubles
the backslashes before what looks like a tag and adds one.  `plain` is what a terminal without
colours shows: the tags are gone, the protection is taken back, and pictures stand in place of their
names.

Tags and protected brackets cut a text into pieces, and the name of a picture lies within one piece.
A backslash before a bracket that starts no tag is lost in `plain`, and a single backslash at the
end of an escaped text comes out double unless a tag follows it.
-/

namespace TreeStore.Shell.Markup

/-- The character can start the inside of a tag. -/
def startsTag (c : Char) : Bool := ('a' ≤ c && c ≤ 'z') || c == '#' || c == '/' || c == '@'

/-- The characters behind an opening bracket make a tag. -/
def isTag : List Char → Bool
  | [] => false
  | c :: cs => startsTag c && (cs.find? fun d => d == '[' || d == ']') == some ']'

/-! ### Protection -/

/-- Goes through a text, with the number of backslashes just passed. -/
def escapeFrom (slashes : Nat) : List Char → List Char
  | [] => List.replicate slashes '\\'
  | '\\' :: cs => escapeFrom (slashes + 1) cs
  | '[' :: cs =>
    let before := if isTag cs then 2 * slashes + 1 else slashes
    List.replicate before '\\' ++ '[' :: escapeFrom 0 cs
  | c :: cs => List.replicate slashes '\\' ++ c :: escapeFrom 0 cs

/-- A single backslash at the end is doubled. -/
def closeEnd (cs : List Char) : List Char :=
  match cs.reverse with
  | '\\' :: '\\' :: _ => cs
  | '\\' :: _ => cs ++ ['\\']
  | _ => cs

/-- The text protected from being read as tags. -/
def escape (s : String) : String := String.ofList (closeEnd (escapeFrom 0 s.toList))

/-! ### Reading -/

/-- Where a reader of tags is. -/
inductive Place where
  /-- Outside of brackets, behind a number of backslashes. -/
  | outside (slashes : Nat)
  /-- In a tag, which is not shown. -/
  | inTag
  /-- In a protected bracket, which is shown as it stands. -/
  | guarded
deriving DecidableEq, Inhabited, Repr

/-- Backslashes in front of some characters in reverse. -/
def slashed (n : Nat) (cs : List Char) : List Char := List.replicate n '\\' ++ cs

/-- The pieces of a text from a place on; the characters of the piece that has begun are in `piece`,
the last one first.  Before a tag a pair of backslashes stands for one, and a backslash left over
protects the bracket. -/
def piecesFrom (place : Place) (piece : List Char) : List Char → List (List Char)
  | [] =>
    match place with
    | .outside n => [(slashed n piece).reverse]
    | _ => [piece.reverse]
  | c :: cs =>
    match place with
    | .outside n =>
      if c = '\\' then piecesFrom (.outside (n + 1)) piece cs
      else if c = '[' && isTag cs then
        let before := [piece.reverse, List.replicate (n / 2) '\\']
        if n % 2 = 0 then before ++ piecesFrom .inTag [] cs
        else before ++ piecesFrom .guarded [c] cs
      else piecesFrom (.outside 0) (c :: slashed (if c = '[' then n - 1 else n) piece) cs
    | .inTag => piecesFrom (if c = ']' then .outside 0 else .inTag) [] cs
    | .guarded =>
      if c = ']' then (c :: piece).reverse :: piecesFrom (.outside 0) [] cs
      else piecesFrom .guarded (c :: piece) cs

/-- A control character that a terminal would act on instead of showing it. -/
def isDropped (c : Char) : Bool := c.toNat == 7 || c.toNat == 8 || (0xb ≤ c.toNat && c.toNat ≤ 0xd)

/-- What is shown of a text with tags. -/
def plain (s : String) : String :=
  String.ofList
    (((piecesFrom (.outside 0) [] s.toList).flatMap Text.Emoji.withPictures).filter (!isDropped ·))

/-- What a text with tags looks like as lines of any length. -/
def shown (s : String) : String := String.ofList (Text.expandTabs (plain s).toList)

end TreeStore.Shell.Markup
