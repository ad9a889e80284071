import TreeStore.Json.Writer
import TreeStore.Text.Quoted

/-!
# Store errors

An error of the store has a numeric code, the message registered for the code, and a cause, usually
the key at fault.  It has two JSON texts: `jsonText` goes through the JSON writer, `handText` is put
together by hand from a table of escapes; the second stands in where the writer is not available.
-/

namespace TreeStore

/-! The numbers that classify errors. -/

namespace ErrorCode

/-- No other code fits. -/
def unknown : Int := 10009999

/-- The operation needs a leaf and found a directory. -/
def notFile : Int := 10000001

/-- The operation needs a directory and found a leaf. -/
def notDir : Int := 10000002

/-- There is no node at the path. -/
def notExists : Int := 10000003

/-- There is a node at the path already. -/
def «exists» : Int := 10000004

/-- The directory has children. -/
def dirNotEmpty : Int := 10000005

/-- The root can be neither replaced nor removed. -/
def rootReadOnly : Int := 10000006

end ErrorCode

/-- An error of the store. -/
structure StoreError where
  code : Int
  message : String
  cause : String
deriving DecidableEq, Inhabited, Repr

namespace StoreError

/-- The message, the cause in parentheses unless it is empty, and the code in brackets. -/
def text (e : StoreError) : String :=
  let cause := if e.cause = "" then "" else " (" ++ e.cause ++ ")"
  e.message ++ cause ++ " [" ++ toString e.code ++ "]"

/-- The error with the names of its parts. -/
def describe (e : StoreError) : String :=
  "StoreError(error_code=" ++ toString e.code ++ ", message=" ++ Text.quoted e.message ++
    ", cause=" ++ Text.quoted e.cause ++ ")"

/-- The error as a JSON object. -/
def toJson (e : StoreError) : Json :=
  .obj [("ErrorCode", .int e.code), ("Message", .str e.message), ("Cause", .str e.cause)]

/-- The JSON object without blanks. -/
def jsonText (e : StoreError) : String := e.toJson.renderCompact

/-! ### The text put together by hand -/

/-- The characters with a short escape, and the letter after the backslash. -/
def shortEscapes : List (Char × Char) :=
  [('"', '"'), ('\\', '\\'), ('\n', 'n'), ('\r', 'r'), ('\t', 't'), ('\x08', 'b'), ('\x0c', 'f')]

/-- One character between quotes, by the table, as it is, or by one or two code units. -/
def handChar (c : Char) : List Char :=
  let unit (n : Nat) : List Char := '\\' :: 'u' :: Text.hex 4 n
  match shortEscapes.lookup c with
  | some e => ['\\', e]
  | none =>
    let n := c.toNat
    if n < 0x20 ∨ 0x7e < n then
      if 0xffff < n then
        let above := n - 0x10000
        unit (0xd800 + above / 0x400) ++ unit (0xdc00 + above % 0x400)
      else unit n
    else [c]

/-- A text between quotes, character by character. -/
def handQuote (s : String) : String := String.ofList ('"' :: s.toList.flatMap handChar ++ ['"'])

/-- The JSON object built field by field. -/
def handText (e : StoreError) : String :=
  "\x7b\"ErrorCode\":" ++ toString e.code ++ ",\"Message\":" ++ handQuote e.message ++
    ",\"Cause\":" ++ handQuote e.cause ++ "\x7d"

/-- The text of a writer that may fail, or the one put together by hand if it does. -/
def jsonTextBy (write : Json → Option String) (e : StoreError) : String :=
  (write e.toJson).getD e.handText

end StoreError

end TreeStore
