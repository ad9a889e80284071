import TreeStore.Association
import TreeStore.Log.Level

/-!
# Loggers and their levels

Loggers are named by words with dots between them.  A logger without a level of its own, that is
with level 0, takes the level of the nearest logger above it that has one, and in the end that of
the root, a warning.

A logger is there once somebody has asked for it.  This matters for names with two dots in a row
only: the way up from a name passes over a dot next to the dot that was used last, unless it came to
a logger that is there, from whose name it starts afresh.
-/

namespace TreeStore.Log

/-- The logger of the whole package. -/
def packageLogger : String := "nodestore"

/-- The logger of the stores. -/
def storeLogger : String := "nodestore.store"

/-- The logger of the command line. -/
def commandLogger : String := "nodestore.cli"

/-- A line for the log, before any handler has seen it. -/
structure Record where
  logger : String
  level : Int
  message : String
deriving DecidableEq, Inhabited, Repr

/-- The names above a logger, nearest first, from its name in reverse.  A name ends before a dot;
the dot just before the one that was used last is `passed` over. -/
def above (present : List String) (passed : Bool) : List Char → List String
  | [] => []
  | c :: cs =>
    if c = '.' ∧ ¬passed ∧ cs ≠ [] then
      let name := String.ofList cs.reverse
      name :: above present (!present.contains name) cs
    else above present false cs

/-- A logger and the loggers above it, nearest first, where the given ones are there; the root has
no name. -/
def ancestry (present : List String) (logger : String) : List String :=
  logger :: above present false logger.toList.reverse

/-- The levels that loggers have been given. -/
structure Levels where
  own : List (String × Int) := []
  /-- The loggers that somebody has asked for. -/
  present : List String := []
deriving DecidableEq, Inhabited, Repr

namespace Levels

/-- The level of the root. -/
def root : Int := Level.warning.value

/-- The level a logger has been given, 0 if none. -/
def of (l : Levels) (logger : String) : Int := (l.own.lookup logger).getD 0

/-- Gives a logger a level. -/
def set (l : Levels) (logger : String) (level : Int) : Levels :=
  { l with own := (logger, level) :: l.own.filter (·.1 != logger) }

/-- Somebody asks for a logger. -/
def ask (l : Levels) (logger : String) : Levels := { l with present := logger :: l.present }

/-- The level that counts for a logger. -/
def effective (l : Levels) (logger : String) : Int :=
  (((ancestry l.present logger).map l.of).find? (· != 0)).getD root

/-- A record of the level passes the logger. -/
def passes (l : Levels) (logger : String) (level : Int) : Bool := l.effective logger ≤ level

/-- Only the package has a level at first, a warning. -/
def initial : Levels := { own := [(packageLogger, Level.warning.value)] }

theorem of_set (l : Levels) (logger : String) (level : Int) (other : String) :
    (l.set logger level).of other = if other = logger then level else l.of other := by
  have hfilter : l.own.filter (·.1 != logger) = l.own.filter (·.1 ≠ logger) :=
    List.filter_congr fun _ _ => decide_not.symm
  unfold of set
  simp only [hfilter, lookup_entry, lookup_filter_ne]
  split <;> rfl

end Levels

end TreeStore.Log
