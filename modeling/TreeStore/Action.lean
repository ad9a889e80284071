/-!
# Actions

The five operations that are counted and announced, in the order in which their counters are listed.
-/

namespace TreeStore

/-- An operation on the store that is counted. -/
inductive Action where
  | get
  | set
  | update
  | create
  | delete
deriving DecidableEq, Inhabited, Repr

namespace Action

/-- All actions, in the order of their counters. -/
def all : List Action := [get, set, update, create, delete]

/-- The name of an action, which is also the name of its event. -/
def name : Action → String
  | get => "get"
  | set => "set"
  | update => "update"
  | create => "create"
  | delete => "delete"

/-- The action of a name. -/
def ofName? (s : String) : Option Action := all.find? (·.name == s)

theorem ofName?_name (a : Action) : ofName? a.name = some a := by cases a <;> decide

end Action

end TreeStore
