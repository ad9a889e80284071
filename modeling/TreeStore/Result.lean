import TreeStore.Action
import TreeStore.Fault
import TreeStore.Node

/-!
# Results

What an operation answers: its action, the state of the node after it (for a deletion the last
state) and the state before it where there was one.  Both states carry the same key.
-/

namespace TreeStore

/-- The answer of an operation. -/
structure Result where
  action : Action
  node : Node
  prev : Option Node := none
deriving Inhabited, Repr

mutual
/-- A node as a JSON object: the children only if there are any, the value only of a leaf. -/
def Node.toJson : Node → Json
  | .leaf k v => .obj [("key", .str k), ("dir", .bool false), ("value", .ofOption v)]
  | .dir k [] => .obj [("key", .str k), ("dir", .bool true)]
  | .dir k (c :: cs) =>
    .obj [("key", .str k), ("dir", .bool true), ("nodes", .arr (c.toJson :: Node.toJsonAll cs))]

/-- The siblings as JSON objects. -/
def Node.toJsonAll : List Node → List Json
  | [] => []
  | c :: cs => c.toJson :: Node.toJsonAll cs
end

theorem Node.toJsonAll_eq_map (cs : List Node) : Node.toJsonAll cs = cs.map Node.toJson := by
  induction cs with
  | nil => rfl
  | cons c cs ih => rw [toJsonAll, ih, List.map_cons]

namespace Result

/-- A result, provided that both states have one key. -/
def make (action : Action) (node : Node) (prev : Option Node := none) : Except Fault Result :=
  match prev with
  | none => .ok ⟨action, node, none⟩
  | some p =>
    if p.key = node.key then .ok ⟨action, node, some p⟩ else .error (.keysDiffer node.key p.key)

/-- A result for the action of the given name. -/
def makeNamed (name : String) (node : Node) (prev : Option Node) : Except Fault Result :=
  match Action.ofName? name with
  | some a => make a node prev
  | none => .error (.unknownAction name)

/-- The result in which the value of the node after the operation is another one. -/
def setValue (r : Result) (value : Option String) : Result :=
  { r with node := r.node.setValue value }

/-- The result as a JSON object; the state before the operation only where there was one. -/
def toJson (r : Result) : Json :=
  .obj ([("action", .str r.action.name), ("node", r.node.toJson)] ++
    (match r.prev with
      | some p => [("prevNode", p.toJson)]
      | none => []))

/-- The result as JSON text. -/
def jsonText (r : Result) : String := r.toJson.render

end Result

end TreeStore
