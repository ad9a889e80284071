/-!
# Lower case

The lower-case forms of the capitals of ASCII and Latin-1, and of the three capitals above whose
lower-case forms are among them.
-/

namespace TreeStore.Text

/-- The capitals above Latin-1 whose lower-case form is ASCII or Latin-1. -/
def lowerToLatin : List (Nat × Nat) := [(0x1e9e, 0xdf), (0x212a, 0x6b), (0x212b, 0xe5)]

/-- The lower-case form of a character where that is ASCII or Latin-1; any other character is left
alone. -/
def lowerChar (c : Char) : Char :=
  let n := c.toNat
  if 0xc0 ≤ n && n ≤ 0xde && n != 0xd7 then Char.ofNat (n + 0x20)
  else
    match lowerToLatin.lookup n with
    | some m => Char.ofNat m
    | none => c.toLower

end TreeStore.Text
