import TreeStore.Json
import TreeStore.Text.Hex
import TreeStore.Text.Integer

/-!
# Reading JSON

A recursive descent over the characters that are left.  An error keeps the number of characters left
where it was found, from which the reader at the top computes line, column and offset.  Besides the
standard the reader accepts the names `NaN`, `Infinity` and `-Infinity` for doubles.  The number of
digits of an integer may be limited, as it is by `read`; that of a double is not.
-/

namespace TreeStore

namespace Json

/-- Why a text is not a JSON value. -/
inductive Flaw where
  | byteOrderMark
  | value
  | name
  | colon
  | comma
  | extra
  | unterminated
  | control
  | escape
  | unicodeEscape
  /-- An integer has `count` digits and so more than the `limit`. -/
  | digits (limit count : Nat)
deriving DecidableEq, Repr, Inhabited

/-- What was expected or found. -/
def Flaw.message : Flaw → String
  | byteOrderMark => "Unexpected UTF-8 BOM (decode using utf-8-sig)"
  | value => "Expecting value"
  | name => "Expecting property name enclosed in double quotes"
  | colon => "Expecting ':' delimiter"
  | comma => "Expecting ',' delimiter"
  | extra => "Extra data"
  | unterminated => "Unterminated string starting at"
  | control => "Invalid control character at"
  | escape => "Invalid \\escape"
  | unicodeEscape => "Invalid \\uXXXX escape"
  | digits limit count =>
    "Exceeds the limit (" ++ toString limit ++ " digits) for integer string " ++
      "conversion: value has " ++ toString count ++ " digits; " ++
      "use sys.set_int_max_str_digits() to increase the limit"

/-- A flaw and the number of characters from its place to the end of the text. -/
structure Stop where
  flaw : Flaw
  left : Nat
deriving DecidableEq, Repr, Inhabited

/-- What a reader of a part gives: the part and the characters after it. -/
abbrev Read (α : Type) := Except Stop (α × List Char)

/-- A blank between tokens. -/
def isGap (c : Char) : Bool := c == ' ' || c == '\t' || c == '\n' || c == '\r'

def skipGap (cs : List Char) : List Char := cs.dropWhile isGap

/-! ### Strings -/

/-- The character after a backslash, when it is not an escape by number. -/
def shortEscape? : Char → Option Char
  | '"' => some '"'
  | '\\' => some '\\'
  | '/' => some '/'
  | 'b' => some '\x08'
  | 'f' => some '\x0c'
  | 'n' => some '\n'
  | 'r' => some '\r'
  | 't' => some '\t'
  | _ => none

/-- Four hexadecimal digits; at least one more character has to follow them. -/
def readUnit? : List Char → Option (Nat × List Char)
  | a :: b :: c :: d :: e :: cs => (Text.readHex? [a, b, c, d]).map fun n => (n, e :: cs)
  | _ => none

/-- The character of a code point; one half of a surrogate pair alone gives the replacement mark. -/
def charOf (n : Nat) : Char := if n.isValidChar then Char.ofNat n else Char.ofNat 0xfffd

/-- The escape by number whose digits come next: one UTF-16 unit, or two when they make a pair. -/
def readUnicode? (cs : List Char) : Except Stop (Char × List Char) :=
  match readUnit? cs with
  | none => .error ⟨.unicodeEscape, cs.length + 1⟩
  | some (high, rest) =>
    match rest with
    | '\\' :: 'u' :: more =>
      if 0xd800 ≤ high ∧ high < 0xdc00 ∧ 4 < more.length then
        match readUnit? more with
        | none => .error ⟨.unicodeEscape, more.length + 1⟩
        | some (low, after) =>
          if 0xdc00 ≤ low ∧ low < 0xe000 then
            .ok (charOf (0x10000 + (high - 0xd800) * 0x400 + (low - 0xdc00)), after)
          else .ok (charOf high, rest)
      else .ok (charOf high, rest)
    | _ => .ok (charOf high, rest)

/-- The rest of a string after its opening quote, which has `opened` characters from it to the end.
The characters read so far are in `acc`, the last one first. -/
def readString (opened : Nat) : (fuel : Nat) → (acc : List Char) → List Char → Read String
  | 0, _, _ => .error ⟨.unterminated, opened⟩
  | fuel + 1, acc, cs =>
    match cs with
    | [] => .error ⟨.unterminated, opened⟩
    | '"' :: rest => .ok (String.ofList acc.reverse, rest)
    | ['\\'] => .error ⟨.unterminated, opened⟩
    | '\\' :: 'u' :: rest =>
      match readUnicode? rest with
      | .error stop => .error stop
      | .ok (c, rest) => readString opened fuel (c :: acc) rest
    | '\\' :: e :: rest =>
      match shortEscape? e with
      | some c => readString opened fuel (c :: acc) rest
      | none => .error ⟨.escape, rest.length + 2⟩
    | c :: rest =>
      if c.toNat < 0x20 then .error ⟨.control, rest.length + 1⟩
      else readString opened fuel (c :: acc) rest

/-- A string whose opening quote has just been read. -/
def readQuoted (cs : List Char) : Read String := readString (cs.length + 1) (cs.length + 1) [] cs

/-! ### Numbers -/

def isDigit (c : Char) : Bool := '0' ≤ c && c ≤ '9'

/-- The number that decimal digits write. -/
def ofDigits (cs : List Char) : Nat := cs.foldl (fun n c => n * 10 + (c.toNat - 48)) 0

/-- The digits in front, and what follows them. -/
def spanDigits (cs : List Char) : List Char × List Char := cs.span isDigit

/-- A fraction: a point and one digit or more. -/
def readFraction : List Char → List Char × List Char
  | '.' :: cs =>
    match spanDigits cs with
    | ([], _) => ([], '.' :: cs)
    | found => found
  | cs => ([], cs)

/-- The digits of an exponent with their sign; `none` if there are none. -/
def readPower? (cs : List Char) : Option (Int × List Char) :=
  let read (sign : Int) (cs : List Char) : Option (Int × List Char) :=
    match spanDigits cs with
    | ([], _) => none
    | (ds, rest) => some (sign * ofDigits ds, rest)
  match cs with
  | '+' :: cs => read 1 cs
  | '-' :: cs => read (-1) cs
  | cs => read 1 cs

/-- An exponent: its mark and one digit or more. -/
def readExponent : List Char → Option Int × List Char
  | cs@(e :: rest) =>
    if e = 'e' ∨ e = 'E' then
      match readPower? rest with
      | some (n, rest) => (some n, rest)
      | none => (none, cs)
    else (none, cs)
  | [] => (none, [])

/-- The digits in front of a point: a zero alone, or digits that start with another one. -/
def readWhole? : List Char → Option (List Char × List Char)
  | '0' :: cs => some (['0'], cs)
  | c :: cs => if isDigit c then some (spanDigits (c :: cs)) else none
  | [] => none

/-- A number without its sign; an integer has at most `limit` digits if there is a limit. -/
def readMagnitude (limit : Option Nat) (negative : Bool) (cs : List Char) : Read Json :=
  match readWhole? cs with
  | none => .error ⟨.value, cs.length + if negative then 1 else 0⟩
  | some (whole, rest) =>
    let (fraction, rest) := readFraction rest
    let (power, rest) := readExponent rest
    if fraction.isEmpty && power.isNone then
      match limit.filter (· < whole.length) with
      | some most => .error ⟨.digits most whole.length, rest.length⟩
      | none =>
        let n := Int.ofNat (ofDigits whole)
        .ok (int (if negative then -n else n), rest)
    else
      let exponent := power.getD 0 - fraction.length
      .ok (double (.ofDecimal negative (ofDigits (whole ++ fraction)) exponent), rest)

/-- A number or one of the names of doubles. -/
def readNumber (limit : Option Nat) : List Char → Read Json
  | 'N' :: 'a' :: 'N' :: rest => .ok (double .nan, rest)
  | 'I' :: 'n' :: 'f' :: 'i' :: 'n' :: 'i' :: 't' :: 'y' :: rest =>
    .ok (double (.infinite false), rest)
  | '-' :: 'I' :: 'n' :: 'f' :: 'i' :: 'n' :: 'i' :: 't' :: 'y' :: rest =>
    .ok (double (.infinite true), rest)
  | '-' :: cs => readMagnitude limit true cs
  | cs => readMagnitude limit false cs

/-! ### Values -/

mutual
/-- A value at the front of the characters; `fuel` bounds the nesting. -/
def readValue (limit : Option Nat) : (fuel : Nat) → List Char → Read Json
  | 0, cs => .error ⟨.value, cs.length⟩
  | fuel + 1, cs =>
    match cs with
    | '"' :: rest => (readQuoted rest).map fun (s, rest) => (str s, rest)
    | '\x7b' :: rest =>
      match skipGap rest with
      | '\x7d' :: rest => .ok (obj [], rest)
      | rest => readFields limit fuel [] rest
    | '[' :: rest =>
      match skipGap rest with
      | ']' :: rest => .ok (arr [], rest)
      | rest => readItems limit fuel [] rest
    | 'n' :: 'u' :: 'l' :: 'l' :: rest => .ok (null, rest)
    | 't' :: 'r' :: 'u' :: 'e' :: rest => .ok (bool true, rest)
    | 'f' :: 'a' :: 'l' :: 's' :: 'e' :: rest => .ok (bool false, rest)
    | cs => readNumber limit cs

/-- The fields of an object from the next one on; those before it are in `acc`. -/
def readFields (limit : Option Nat) :
    (fuel : Nat) → (acc : List (String × Json)) → List Char → Read Json
  | 0, _, cs => .error ⟨.name, cs.length⟩
  | fuel + 1, acc, cs =>
    match cs with
    | '"' :: rest =>
      match readQuoted rest with
      | .error stop => .error stop
      | .ok (name, rest) =>
        match skipGap rest with
        | ':' :: rest =>
          match readValue limit fuel (skipGap rest) with
          | .error stop => .error stop
          | .ok (v, rest) =>
            match skipGap rest with
            | '\x7d' :: rest => .ok (obj (setField name v acc), rest)
            | ',' :: rest => readFields limit fuel (setField name v acc) (skipGap rest)
            | rest => .error ⟨.comma, rest.length⟩
        | rest => .error ⟨.colon, rest.length⟩
    | cs => .error ⟨.name, cs.length⟩

/-- The items of a list from the next one on; those before it are in `acc`, the last one first. -/
def readItems (limit : Option Nat) : (fuel : Nat) → (acc : List Json) → List Char → Read Json
  | 0, _, cs => .error ⟨.value, cs.length⟩
  | fuel + 1, acc, cs =>
    match readValue limit fuel cs with
    | .error stop => .error stop
    | .ok (v, rest) =>
      match skipGap rest with
      | ']' :: rest => .ok (arr (v :: acc).reverse, rest)
      | ',' :: rest => readItems limit fuel (v :: acc) (skipGap rest)
      | rest => .error ⟨.comma, rest.length⟩
end

/-- Reads a whole text as one value. -/
def readChars (limit : Option Nat) (cs : List Char) : Except Stop Json :=
  match cs with
  | '\ufeff' :: _ => .error ⟨.byteOrderMark, cs.length⟩
  | _ =>
    match readValue limit (cs.length + 1) (skipGap cs) with
    | .error stop => .error stop
    | .ok (v, rest) =>
      match skipGap rest with
      | [] => .ok v
      | rest => .error ⟨.extra, rest.length⟩

/-- A flaw with its place in the text, counted in characters: from one for line and column. -/
structure ReadError where
  flaw : Flaw
  line : Nat
  column : Nat
  offset : Nat
deriving DecidableEq, Repr, Inhabited

/-- The place at which `left` characters of the text are left. -/
def ReadError.locate (cs : List Char) (stop : Stop) : ReadError :=
  let offset := cs.length - stop.left
  let before := cs.take offset
  { flaw := stop.flaw
    line := before.count '\n' + 1
    column := (before.reverse.takeWhile (· != '\n')).length + 1
    offset := offset }

/-- The flaw in words, with its place unless an integer is too long. -/
def ReadError.message (e : ReadError) : String :=
  match e.flaw with
  | .digits .. => e.flaw.message
  | _ =>
    e.flaw.message ++ ": line " ++ toString e.line ++ " column " ++ toString e.column ++
      " (char " ++ toString e.offset ++ ")"

/-- Reads a whole text as one value, or says what is wrong with it and where; integers have at most
`limit` digits if there is a limit. -/
def readWithin (limit : Option Nat) (s : String) : Except ReadError Json :=
  match readChars limit s.toList with
  | .ok v => .ok v
  | .error stop => .error (ReadError.locate s.toList stop)

/-- Reads a whole text as one value, with the limit of integers written by people. -/
def read (s : String) : Except ReadError Json := readWithin (some Text.maxDigits) s

end Json

end TreeStore
