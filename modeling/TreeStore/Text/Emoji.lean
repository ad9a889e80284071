import TreeStore.Text.Blank
import TreeStore.Text.Emoji.Families
import TreeStore.Text.Emoji.Signs
import TreeStore.Text.Hex
import TreeStore.Text.Lines
import TreeStore.Text.Lower

/-!
# Pictures by name

A name between colons stands for a picture, in either case: `:x:` is a cross.  An end `-text` or
`-emoji` of the name asks for one of the two forms of the picture.  `withPictures` puts the pictures
in place; a text between colons that is no name of a picture stays, and so does its second colon,
which opens no name of its own.
-/

namespace TreeStore.Text.Emoji

/-! ### Names -/

/-- The entries of a text with commas between them, each cut into words. -/
def entries (text : String) : List (List (List Char)) :=
  (cutLines (· == ',') text.toList).map fun entry =>
    (cutLines isBlank entry).filter (!·.isEmpty)

/-- The pictures of single signs. -/
def signs : List (String × List Char) :=
  (entries signText).filterMap fun
    | name :: points =>
      some (String.ofList name, points.filterMap fun p => (readHex? p).map Char.ofNat)
    | [] => none

/-- The regional indicator of a letter. -/
def indicator (letter : Char) : Char := Char.ofNat (0x1f1e6 + (letter.toNat - 'a'.toNat))

/-- The flags of countries. -/
def flags : List (String × List Char) :=
  (entries countryText).filterMap fun
    | [name, letters] => some (String.ofList name, letters.map indicator)
    | _ => none

/-- The names of the pictures that come in tones of skin. -/
def toned : List String := (entries tonedText).filterMap fun words => words.head?.map String.ofList

/-- The list without an end that it has to have. -/
def dropEnd? (ending cs : List Char) : Option (List Char) :=
  if ending.isSuffixOf cs then some (cs.take (cs.length - ending.length)) else none

/-- A picture in a tone of skin: the modifier stands in place of a picture selector behind the first
character. -/
def inTone (modifier : Char) : List Char → List Char
  | c :: '\ufe0f' :: cs => c :: modifier :: cs
  | c :: cs => c :: modifier :: cs
  | [] => []

/-- The picture of a name that ends with a tone of skin. -/
def tonedPicture? (name : List Char) : Option (List Char) :=
  tones.findSome? fun (ending, modifier) => do
    let neutral := String.ofList (← dropEnd? ending.toList name)
    guard (toned.contains neutral)
    return inTone (Char.ofNat modifier) (← signs.lookup neutral)

/-- The flag of a name, with or without `flag_for_` before it. -/
def flag? (name : List Char) : Option (List Char) :=
  let opening := "flag_for_".toList
  flags.lookup (String.ofList (if opening.isPrefixOf name then name.drop opening.length else name))

/-- The picture of a name in lower case. -/
def picture? (name : List Char) : Option (List Char) :=
  signs.lookup (String.ofList name) <|> flag? name <|> tonedPicture? name

/-- The ends of names for the two forms of a picture, and the selectors of these forms. -/
def forms : List (String × Char) := [("-emoji", '\ufe0f'), ("-text", '\ufe0e')]

/-- A name without the end for a form, and the selector of that form. -/
def splitForm (name : List Char) : List Char × List Char :=
  (forms.findSome? fun (ending, selector) =>
    (dropEnd? ending.toList name).map fun bare => (bare, [selector])).getD (name, [])

/-- What stands for the text between two colons. -/
def named (name : List Char) : List Char :=
  let (bare, selector) := splitForm name
  match picture? (bare.map lowerChar) with
  | some picture => picture ++ selector
  | none => ':' :: name ++ [':']

/-! ### In a text -/

/-- A character that can be part of a name. -/
def inName (c : Char) : Bool := c != ':' && !isBlank c

/-- The text with pictures in place of their names between colons. -/
def withPictures : List Char → List Char
  | [] => []
  | c :: cs =>
    if c = ':' then
      match _h : cs.dropWhile inName with
      | ':' :: rest => named (cs.takeWhile inName) ++ withPictures rest
      | _ => ':' :: withPictures cs
    else c :: withPictures cs
termination_by cs => cs.length
decreasing_by
  · have := (List.dropWhile_suffix inName (l := cs)).length_le
    simp_all
    omega
  · simp
  · simp

end TreeStore.Text.Emoji
