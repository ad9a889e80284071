import TreeStore.Text.Hex
import TreeStore.Text.Printable

/-!
# Quoted text

Text between single quotes; double quotes are used when the text holds a single quote and no double
one.  A backslash and the quote in use get a backslash before them, line feed, carriage return and
tab have short escapes, and every other character that cannot be printed is written by its code
point: two hexadecimal digits after `\x`, four after `\u` or eight after `\U`.
-/

namespace TreeStore.Text

/-- The quote around a text. -/
def quoteFor (cs : List Char) : Char :=
  if '\'' ∈ cs ∧ '"' ∉ cs then '"' else '\''

/-- One character between the quotes. -/
def quotedChar (quote c : Char) : List Char :=
  if c = quote ∨ c = '\\' then ['\\', c]
  else if c = '\n' then ['\\', 'n']
  else if c = '\r' then ['\\', 'r']
  else if c = '\t' then ['\\', 't']
  else if isPrintable c then [c]
  else if c.toNat ≤ 0xff then '\\' :: 'x' :: hex 2 c.toNat
  else if c.toNat ≤ 0xffff then '\\' :: 'u' :: hex 4 c.toNat
  else '\\' :: 'U' :: hex 8 c.toNat

/-- The text in quotes. -/
def quoted (s : String) : String :=
  let cs := s.toList
  let q := quoteFor cs
  String.ofList (q :: cs.flatMap (quotedChar q) ++ [q])

/-- A value that may be absent, in quotes or as the word `None`. -/
def quotedOrNone : Option String → String
  | some s => quoted s
  | none => "None"

end TreeStore.Text
