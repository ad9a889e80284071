import TreeStore.Text.Upper

/-!
# Log levels

The five named levels and their numbers.  A record or a threshold may also have a number without a
name, even one below zero.
-/

namespace TreeStore.Log

/-- A named level. -/
inductive Level where
  | debug
  | info
  | warning
  | error
  | critical
deriving DecidableEq, Inhabited, Repr

namespace Level

/-- All levels, the most talkative first. -/
def all : List Level := [debug, info, warning, error, critical]

def name : Level → String
  | debug => "DEBUG"
  | info => "INFO"
  | warning => "WARNING"
  | error => "ERROR"
  | critical => "CRITICAL"

def value : Level → Int
  | debug => 10
  | info => 20
  | warning => 30
  | error => 40
  | critical => 50

/-- The level with exactly this name. -/
def ofName? (s : String) : Option Level := all.find? (·.name == s)

/-- The level whose name is the upper-case form of a text. -/
def ofText? (s : String) : Option Level := ofName? (Text.upper s)

theorem ofName?_name (l : Level) : ofName? l.name = some l := by cases l <;> decide

theorem ofText?_name (l : Level) : ofText? l.name = some l := by cases l <;> decide

end Level

/-- The label of a level number in a log line. -/
def label (value : Int) : String :=
  if value = 0 then "NOTSET"
  else
    match Level.all.find? (·.value == value) with
    | some l => l.name
    | none => "Level " ++ toString value

end TreeStore.Log
