/-!
# Upper case

The upper-case form of a character may have several letters, as that of `ß` has.  Kept apart from
the rest are the characters whose upper-case form is ASCII: those of ASCII itself, and ten others.
-/

namespace TreeStore.Text

/-- The characters above ASCII whose upper-case form is ASCII. -/
def upperToAscii : List (Nat × String) :=
  [(0xdf, "SS"), (0x131, "I"), (0x17f, "S"), (0xfb00, "FF"), (0xfb01, "FI"), (0xfb02, "FL"),
   (0xfb03, "FFI"), (0xfb04, "FFL"), (0xfb05, "ST"), (0xfb06, "ST")]

/-- The upper-case form of a character where that is ASCII; any other character is left alone. -/
def upperChar (c : Char) : List Char :=
  match upperToAscii.lookup c.toNat with
  | some s => s.toList
  | none => [c.toUpper]

/-- The text in upper case as far as that is ASCII: enough to compare it with an ASCII word. -/
def upper (s : String) : String := String.ofList (s.toList.flatMap upperChar)

end TreeStore.Text
