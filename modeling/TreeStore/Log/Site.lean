/-!
# Call sites

The place that a log record is said to come from: the one attached to it, else the line of code that
logged it, else `-:-:0`.
-/

namespace TreeStore.Log

/-- A place in the code. -/
structure Site where
  file : String
  function : String
  line : Int
deriving DecidableEq, Inhabited, Repr

def Site.text (s : Site) : String := s.file ++ ":" ++ s.function ++ ":" ++ toString s.line

/-- The text for a place that is not known. -/
def Site.unknown : String := "-:-:0"

/-- The last part of a file path. -/
def fileName (path : String) : String :=
  String.ofList (path.toList.reverse.takeWhile (· != '/')).reverse

/-- The text of the place of a record: the attached place comes first, then the line that logged the
record, where a line of 0 is none. -/
def siteText (attached : Option Site) (path function : String) (line : Int) : String :=
  match attached with
  | some s => s.text
  | none => if line = 0 then Site.unknown else Site.text ⟨fileName path, function, line⟩

end TreeStore.Log
