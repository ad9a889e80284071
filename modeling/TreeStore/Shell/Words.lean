/-!
# Splitting a command line into words

Words are separated by blanks.  Quotes of either kind hold blanks together and may stand anywhere in
a word; between double quotes a backslash escapes a double quote or a backslash and otherwise stands
for itself, outside quotes it escapes any character.  A `#` outside quotes, even inside a word,
starts a comment that ends with the line; the splitting goes on behind it.
-/

namespace TreeStore.Shell

/-- Why a line has no words. -/
inductive WordFlaw where
  | openQuote
  | openEscape
deriving DecidableEq, Inhabited, Repr

def WordFlaw.message : WordFlaw → String
  | openQuote => "No closing quotation"
  | openEscape => "No escaped character"

/-- Where in the line the reading stands. -/
inductive Mode where
  | blank
  | comment
  | word
  | single
  | double
  /-- Behind a backslash outside quotes. -/
  | escape
  /-- Behind a backslash between double quotes. -/
  | doubleEscape
deriving DecidableEq, Inhabited, Repr

/-- The blanks between words. -/
def isSeparator (c : Char) : Bool := c == ' ' || c == '\t' || c == '\r' || c == '\n'

/-- A word has started: it has characters, or quotes that may be empty. -/
def emitWord (token : List Char) (hasQuotes : Bool) (rest : List (List Char)) : List (List Char) :=
  if token.isEmpty && !hasQuotes then rest else token.reverse :: rest

/-- The words from a place in the line on.  `token` is the word read so far, its last character
first, and `hasQuotes` says that it has had quotes. -/
def scan : Mode → (token : List Char) → (hasQuotes : Bool) → List Char →
    Except WordFlaw (List (List Char))
  | .blank, _, _, [] | .comment, _, _, [] => .ok []
  | .word, token, hasQuotes, [] => .ok (emitWord token hasQuotes [])
  | .single, _, _, [] | .double, _, _, [] => .error .openQuote
  | .escape, _, _, [] | .doubleEscape, _, _, [] => .error .openEscape
  | .blank, _, _, c :: cs =>
    if isSeparator c then scan .blank [] false cs
    else if c = '#' then scan .comment [] false cs
    else if c = '\\' then scan .escape [] false cs
    else if c = '\'' then scan .single [] false cs
    else if c = '"' then scan .double [] false cs
    else scan .word [c] false cs
  | .comment, _, _, c :: cs =>
    if c = '\n' then scan .blank [] false cs else scan .comment [] false cs
  | .word, token, hasQuotes, c :: cs =>
    if isSeparator c then (scan .blank [] false cs).map (emitWord token hasQuotes)
    else if c = '#' then (scan .comment [] false cs).map (emitWord token hasQuotes)
    else if c = '\\' then scan .escape token hasQuotes cs
    else if c = '\'' then scan .single token hasQuotes cs
    else if c = '"' then scan .double token hasQuotes cs
    else scan .word (c :: token) hasQuotes cs
  | .single, token, _, c :: cs =>
    if c = '\'' then scan .word token true cs else scan .single (c :: token) true cs
  | .double, token, _, c :: cs =>
    if c = '"' then scan .word token true cs
    else if c = '\\' then scan .doubleEscape token true cs
    else scan .double (c :: token) true cs
  | .escape, token, hasQuotes, c :: cs => scan .word (c :: token) hasQuotes cs
  | .doubleEscape, token, _, c :: cs =>
    if c = '"' ∨ c = '\\' then scan .double (c :: token) true cs
    else scan .double (c :: '\\' :: token) true cs

/-- The words of a line. -/
def words (line : String) : Except WordFlaw (List String) :=
  (scan .blank [] false line.toList).map (·.map String.ofList)

end TreeStore.Shell
