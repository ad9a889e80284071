import TreeStore.Answer
import TreeStore.Graph

/-!
# Results in memory

Whoever has a result holds its nodes, and these have an identity: a value that is assigned to one of
them is seen by all who hold it.  `Held` is a result by the numbers of its nodes in a graph, `read`
is what it looks like there at the moment, and a clone is a result of new nodes.
-/

namespace TreeStore

/-- A result by the numbers of its nodes in a graph. -/
structure Held where
  action : Action
  node : Nat
  prev : Option Nat := none
deriving DecidableEq, Inhabited, Repr

namespace Held

/-- What the result looks like in the graph. -/
def read (h : Held) (g : Graph) : Result := ⟨h.action, g.view h.node, h.prev.map g.view⟩

/-- Puts a result into a graph, in new nodes. -/
def plant (g : Graph) (r : Result) : Held × Graph :=
  let (node, g) := g.plant none r.node
  match r.prev with
  | none => (⟨r.action, node, none⟩, g)
  | some p =>
    let (prev, g) := g.plant none p
    (⟨r.action, node, some prev⟩, g)

/-- Copies a result, each of its nodes with all that is below it. -/
def clone (h : Held) (g : Graph) : Held × Graph :=
  let (node, g) := g.clone h.node none false
  match h.prev with
  | none => (⟨h.action, node, none⟩, g)
  | some p =>
    let (prev, g) := g.clone p none false
    (⟨h.action, node, some prev⟩, g)

/-- Assigns the value of the node after the operation. -/
def setValue (h : Held) (g : Graph) (value : Option String) : Graph := g.setValue h.node value

end Held

/-- A copy of a result that is alone in memory. -/
def Result.clone (r : Result) : Result :=
  let (h, g) := Held.plant {} r
  let (copy, g) := h.clone g
  copy.read g

/-- What the taker of a call has of its answer. -/
inductive Kept where
  | result (h : Held)
  | other (a : Answer)
deriving Inhabited, Repr

/-- The answer as it looks now. -/
def Kept.read (g : Graph) : Kept → Answer
  | result h => .result (h.read g)
  | other a => a

/-- Hands an outcome to the taker of the call: a result in new nodes. -/
def keep (g : Graph) : Except Fault Answer → Except Fault Kept × Graph
  | .ok (.result r) =>
    let (h, g) := Held.plant g r
    (.ok (.result h), g)
  | .ok a => (.ok (.other a), g)
  | .error f => (.error f, g)

end TreeStore
