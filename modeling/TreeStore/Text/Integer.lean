import TreeStore.Text.Blank

/-!
# Integers written by people

`readInteger?` accepts an optional sign and decimal digits of any script, with single underscores
between digits and blanks around the whole.  Of the ASCII characters only the tab, the line and page
breaks and the space count as blanks here; the four information separators do not.  An integer with
more than 4300 digits, leading zeros included, is refused, and `writeInteger?` writes none either.
-/

namespace TreeStore.Text

/-- The digit zero of every script with decimal digits; the digits one to nine follow each of
them. -/
def zeros : List Nat :=
  [0x30, 0x660, 0x6f0, 0x7c0, 0x966, 0x9e6, 0xa66, 0xae6, 0xb66, 0xbe6, 0xc66, 0xce6, 0xd66,
   0xde6, 0xe50, 0xed0, 0xf20, 0x1040, 0x1090, 0x17e0, 0x1810, 0x1946, 0x19d0, 0x1a80, 0x1a90,
   0x1b50, 0x1bb0, 0x1c40, 0x1c50, 0xa620, 0xa8d0, 0xa900, 0xa9d0, 0xa9f0, 0xaa50, 0xabf0, 0xff10,
   0x104a0, 0x10d30, 0x11066, 0x110f0, 0x11136, 0x111d0, 0x112f0, 0x11450, 0x114d0, 0x11650,
   0x116c0, 0x11730, 0x118e0, 0x11950, 0x11c50, 0x11d50, 0x11da0, 0x16a60, 0x16ac0, 0x16b50,
   0x1d7ce, 0x1d7d8, 0x1d7e2, 0x1d7ec, 0x1d7f6, 0x1e140, 0x1e2f0, 0x1e950, 0x1fbf0]

/-- The value of a decimal digit of any script. -/
def digitValue? (c : Char) : Option Nat :=
  (zeros.find? fun z => z ≤ c.toNat && c.toNat < z + 10).map (c.toNat - ·)

/-- The most digits that an integer may have. -/
def maxDigits : Nat := 4300

/-- The number of decimal digits of an integer, its sign apart. -/
def digitCount (n : Int) : Nat := (Nat.toDigits 10 n.natAbs).length

/-- Writes an integer in decimal, unless it has too many digits. -/
def writeInteger? (n : Int) : Option String :=
  if digitCount n ≤ maxDigits then some (toString n) else none

/-- The values of the digits after the first one, each with at most one underscore before it. -/
def readDigits : List Char → Option (List Nat)
  | [] => some []
  | '_' :: c :: cs => do return (← digitValue? c) :: (← readDigits cs)
  | c :: cs => do return (← digitValue? c) :: (← readDigits cs)

/-- Reads one digit or more. -/
def readNumber? : List Char → Option Nat
  | [] => none
  | c :: cs => do
    let digits := (← digitValue? c) :: (← readDigits cs)
    guard (digits.length ≤ maxDigits)
    return digits.foldl (fun n d => n * 10 + d) 0

/-- A blank that may stand around an integer. -/
def isMargin (c : Char) : Bool :=
  isBlank c && !(0x1c ≤ c.toNat && c.toNat ≤ 0x1f)

/-- Reads a signed integer with blanks around it. -/
def readInteger? (s : String) : Option Int :=
  match trim isMargin s.toList with
  | '+' :: cs => (readNumber? cs).map Int.ofNat
  | '-' :: cs => (readNumber? cs).map (- Int.ofNat ·)
  | cs => (readNumber? cs).map Int.ofNat

end TreeStore.Text
