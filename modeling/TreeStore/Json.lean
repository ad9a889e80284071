import TreeStore.Number.Double

/-!
# JSON values

A JSON value keeps integers, of any size, apart from doubles, and the fields of an object in the
order in which their names first appeared.
-/

namespace TreeStore

/-- A JSON value. -/
inductive Json where
  | null
  | bool (b : Bool)
  | int (n : Int)
  | double (x : Double)
  | str (s : String)
  | arr (items : List Json)
  | obj (fields : List (String × Json))
deriving Inhabited, Repr, BEq

namespace Json

/-- The fields with `value` under `name`: in its old position if the name is there, else last. -/
def setField (name : String) (value : Json) : List (String × Json) → List (String × Json)
  | [] => [(name, value)]
  | f :: fs => if f.1 = name then (name, value) :: fs else f :: setField name value fs

/-- The value of a field of an object; anything else has no fields. -/
def field? (v : Json) (name : String) : Option Json :=
  match v with
  | obj fs => fs.lookup name
  | _ => none

/-- The value counts as a yes: it is neither `null`, `false`, zero nor empty. -/
def truthy : Json → Bool
  | null => false
  | bool b => b
  | int n => n != 0
  | double x => x.isNonzero
  | str s => s != ""
  | arr xs => !xs.isEmpty
  | obj fs => !fs.isEmpty

/-- An optional text, `null` if absent. -/
def ofOption : Option String → Json
  | some s => str s
  | none => null

@[simp] theorem truthy_bool (b : Bool) : (bool b).truthy = b := rfl

end Json

end TreeStore
