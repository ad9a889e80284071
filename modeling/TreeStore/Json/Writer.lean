import TreeStore.Json.Display

/-!
# Writing JSON

The written text is ASCII: a character outside the printable range is escaped by its UTF-16 units,
six characters for each, unless it has a short escape.  The separators between items and behind the
names of fields are a choice of the caller.
-/

namespace TreeStore

namespace Json

/-- What stands between two items and between a name and its value. -/
structure Separators where
  item : List Char
  field : List Char

/-- A blank behind each comma and each colon. -/
def Separators.spaced : Separators := ⟨[',', ' '], [':', ' ']⟩

/-- No blanks at all. -/
def Separators.compact : Separators := ⟨[','], [':']⟩

/-- The UTF-16 units of a character. -/
def utf16 (c : Char) : List Nat :=
  let n := c.toNat
  if n < 0x10000 then [n]
  else [0xd800 + (n - 0x10000) / 0x400, 0xdc00 + (n - 0x10000) % 0x400]

/-- One character inside a JSON string. -/
def escapeChar (c : Char) : List Char :=
  match c with
  | '"' => ['\\', '"']
  | '\\' => ['\\', '\\']
  | '\n' => ['\\', 'n']
  | '\r' => ['\\', 'r']
  | '\t' => ['\\', 't']
  | '\x08' => ['\\', 'b']
  | '\x0c' => ['\\', 'f']
  | c =>
    if 0x20 ≤ c.toNat ∧ c.toNat ≤ 0x7e then [c]
    else (utf16 c).flatMap fun u => '\\' :: 'u' :: Text.hex 4 u

/-- A string with its quotes. -/
def writeString (s : String) : List Char := '"' :: s.toList.flatMap escapeChar ++ ['"']

/-- A double; the values that are no numbers have names of their own. -/
def writeDouble : Double → List Char
  | .nan => "NaN".toList
  | .infinite false => "Infinity".toList
  | .infinite true => "-Infinity".toList
  | x => (x.write DoubleStyle.message).toList

/-- The texts with the separator between them. -/
def separate (sep : List Char) : List (List Char) → List Char
  | [] => []
  | [t] => t
  | t :: ts => t ++ sep ++ separate sep ts

mutual
/-- The characters of a value. -/
def write (sep : Separators) : Json → List Char
  | null => "null".toList
  | bool b => (if b then "true" else "false").toList
  | int n => (toString n).toList
  | double x => writeDouble x
  | str s => writeString s
  | arr xs => '[' :: separate sep.item (writeItems sep xs) ++ [']']
  | obj fs => '\x7b' :: separate sep.item (writeFields sep fs) ++ ['\x7d']

/-- The items of a list. -/
def writeItems (sep : Separators) : List Json → List (List Char)
  | [] => []
  | x :: xs => write sep x :: writeItems sep xs

/-- The fields of an object, names and values. -/
def writeFields (sep : Separators) : List (String × Json) → List (List Char)
  | [] => []
  | (name, x) :: fs => (writeString name ++ sep.field ++ write sep x) :: writeFields sep fs
end

/-- The text with blanks behind the separators. -/
def render (v : Json) : String := String.ofList (v.write .spaced)

/-- The text without blanks. -/
def renderCompact (v : Json) : String := String.ofList (v.write .compact)

end Json

end TreeStore
