/-!
# Lines

Three ways to end a line: `unifyNewlines` turns the two carriage-return endings into line feeds,
`splitLines` cuts a text at every line boundary of Unicode, and `splitFeeds` at line feeds only.
Neither cut leaves an empty last line behind a final boundary.
-/

namespace TreeStore.Text

/-- Line feeds in place of the pairs carriage return, line feed and of single carriage returns. -/
def unifyFeeds : List Char → List Char
  | [] => []
  | '\r' :: '\n' :: cs => '\n' :: unifyFeeds cs
  | '\r' :: cs => '\n' :: unifyFeeds cs
  | c :: cs => c :: unifyFeeds cs

/-- The text with line feeds as its only line endings. -/
def unifyNewlines (s : String) : String := String.ofList (unifyFeeds s.toList)

/-- The characters that end a line. -/
def isBoundary (c : Char) : Bool :=
  (0xa ≤ c.toNat && c.toNat ≤ 0xd) || (0x1c ≤ c.toNat && c.toNat ≤ 0x1e) || c.toNat == 0x85 ||
    c.toNat == 0x2028 || c.toNat == 0x2029

/-- Puts a character in front of the first line. -/
def consLine (c : Char) : List (List Char) → List (List Char)
  | [] => [[c]]
  | l :: ls => (c :: l) :: ls

/-- Cuts at each character that satisfies `ends`; the last line may lack its end. -/
def cutLines (ends : Char → Bool) : List Char → List (List Char)
  | [] => []
  | c :: cs => if ends c then [] :: cutLines ends cs else consLine c (cutLines ends cs)

/-- The lines of a text, cut at every line boundary; the pair carriage return, line feed is one. -/
def splitLines (s : String) : List String :=
  (cutLines isBoundary (joinPairs s.toList)).map String.ofList
where
  /-- Drops the carriage return of each pair. -/
  joinPairs : List Char → List Char
    | [] => []
    | '\r' :: '\n' :: cs => '\n' :: joinPairs cs
    | c :: cs => c :: joinPairs cs

/-- The lines of a text, cut at line feeds. -/
def splitFeeds (s : String) : List String :=
  (cutLines (· == '\n') s.toList).map String.ofList

end TreeStore.Text
