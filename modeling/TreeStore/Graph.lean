import TreeStore.Fault
import TreeStore.Node

/-!
# Graphs of shared nodes

Nodes with an identity, which several directories may hold at once.  A directory maps names to the
nodes it holds; each node has one link to a parent, which follows the last directory it was added
to.  Removing or replacing a node in any directory clears its link, also when the link was to
another one.

`view` is the tree that unfolds from a node of a graph without cycles, `plant` adds a tree of new
nodes to a graph; a clone is a planted copy of the view.
-/

namespace TreeStore

/-- A node of a graph. -/
structure Vertex where
  key : String
  isDir : Bool
  value : Option String
  children : List (String × Nat) := []
  parent : Option Nat := none
deriving DecidableEq, Inhabited, Repr

/-- A node without children and without a parent; a directory has no value. -/
def Vertex.new (key : String) (isDir : Bool) (value : Option String) : Vertex :=
  { key := key, isDir := isDir, value := if isDir then none else value }

/-- The last part of the key. -/
def Vertex.name (v : Vertex) : String := Path.baseName v.key

/-- The node in words. -/
def Vertex.describe (v : Vertex) : String :=
  "Node(key=" ++ Text.quoted v.key ++
    (if v.isDir then ", is_dir=True, children=" ++ toString v.children.length
      else ", is_dir=False, value=" ++ Text.quotedOrNone v.value) ++ ")"

/-- Nodes by their number. -/
structure Graph where
  vertices : List Vertex := []
deriving DecidableEq, Inhabited, Repr

namespace Graph

def get? (g : Graph) (i : Nat) : Option Vertex := g.vertices[i]?

/-- The node of a number; a leaf without a key if there is none. -/
def vertex (g : Graph) (i : Nat) : Vertex := (g.get? i).getD default

/-- Changes one node. -/
def update (g : Graph) (i : Nat) (f : Vertex → Vertex) : Graph := ⟨g.vertices.modify i f⟩

/-- Adds a node; its number is the next one. -/
def add (g : Graph) (v : Vertex) : Nat × Graph := (g.vertices.length, ⟨g.vertices ++ [v]⟩)

/-- Adds a node without children and without a parent. -/
def new (g : Graph) (key : String) (isDir : Bool) (value : Option String) : Nat × Graph :=
  g.add (.new key isDir value)

/-- The directory `/` alone. -/
def rooted : Graph := (new {} "/" true none).2

/-- The number of the root in a graph that started as `rooted`. -/
def rootId : Nat := 0

/-- Puts a node under its name: in place of the one of that name, else last. -/
def bind (name : String) (child : Nat) : List (String × Nat) → List (String × Nat)
  | [] => [(name, child)]
  | c :: cs => if c.1 = name then (name, child) :: cs else c :: bind name child cs

/-- Clears the link of a node to its parent. -/
def orphan (g : Graph) (i : Nat) : Graph := g.update i fun v => { v with parent := none }

/-- Adds a node to a directory.  The node that it replaces there loses its parent. -/
def addChild (g : Graph) (d child : Nat) : Except Fault Graph :=
  match g.get? d, g.get? child with
  | some v, some c =>
    if v.isDir then
      let g :=
        match v.children.lookup c.name with
        | some old => if old = child then g else g.orphan old
        | none => g
      let g := g.update d fun v => { v with children := bind c.name child v.children }
      .ok (g.update child fun v => { v with parent := some d })
    else .error (.childOfLeaf v.key)
  | _, _ => .error (.noNode (toString d))

/-- Takes the child of a name out of a directory, which clears its link; gives the child. -/
def removeChild (g : Graph) (d : Nat) (name : String) : Option Nat × Graph :=
  match (g.get? d).bind fun v => if v.isDir then v.children.lookup name else none with
  | none => (none, g)
  | some child =>
    let g := g.update d fun v => { v with children := v.children.filter (·.1 ≠ name) }
    (some child, g.orphan child)

/-- Assigns a value, also to a directory. -/
def setValue (g : Graph) (i : Nat) (value : Option String) : Graph :=
  g.update i fun v => { v with value := value }

/-- The child of a name. -/
def child? (g : Graph) (d : Nat) (name : String) : Option Nat :=
  (g.get? d).bind fun v => if v.isDir then v.children.lookup name else none

/-- The node a list of names below this one. -/
def at? (g : Graph) (i : Nat) : List String → Option Nat
  | [] => some i
  | s :: ss => (g.child? i s).bind (g.at? · ss)

/-! ### Trees in a graph -/

/-- The tree that unfolds from a node, at most `fuel` levels deep. -/
def unfold (g : Graph) : (fuel : Nat) → Nat → Node
  | 0, _ => default
  | fuel + 1, i =>
    match g.get? i with
    | none => default
    | some v =>
      if v.isDir then .dir v.key (v.children.map fun c => g.unfold fuel c.2)
      else .leaf v.key v.value

/-- The tree that unfolds from a node; without cycles no way down is longer than the graph. -/
def view (g : Graph) (i : Nat) : Node := g.unfold g.vertices.length i

mutual
/-- Adds new nodes for a tree, its root below the given parent; gives the number of its root. -/
def plant (g : Graph) (parent : Option Nat) : Node → Nat × Graph
  | .leaf k v => g.add { key := k, isDir := false, value := v, parent := parent }
  | .dir k cs =>
    let (i, g) := g.add { key := k, isDir := true, value := none, parent := parent }
    let (children, g) := g.plantAll i cs
    (i, g.update i fun v => { v with children := children })

/-- Adds new nodes for siblings below a parent; gives their names and numbers. -/
def plantAll (g : Graph) (parent : Nat) : List Node → List (String × Nat) × Graph
  | [] => ([], g)
  | c :: cs =>
    let (i, g) := g.plant (some parent) c
    let (rest, g) := g.plantAll parent cs
    ((c.name, i) :: rest, g)
end

/-- A copy of a node down to a depth, of new nodes only; gives its number. -/
def clone (g : Graph) (i : Nat) (depth : Node.Depth) (sorted : Bool) : Nat × Graph :=
  g.plant none ((g.view i).clone depth sorted)

end Graph

/-! ## Working with named nodes -/

namespace Graph

/-- A step on nodes that have been given names. -/
inductive Step where
  | new (id key : String) (isDir : Bool) (value : Option String)
  | info (id : String)
  | describe (id : String)
  | addChild (id child : String)
  | removeChild (id name : String)
  | getChild (id name : String)
  | getChildren (id : String) (sorted : Bool)
  | iterate (id : String)
  | clone (id : String) (depth : Node.Depth) (sorted : Bool) (copy : Option String)
  | setValue (id : String) (value : Option String)
  | view (id : String)
deriving Inhabited, Repr

/-- What a step shows. -/
inductive Answer where
  | done
  | info (v : Vertex) (parent : Option String)
  | text (s : String)
  | removed (n : Node) (parent : Option String)
  | node (n : Option Node)
  | keys (ks : List String)
deriving Inhabited, Repr

/-- A graph and the names of some of its nodes. -/
structure Workspace where
  graph : Graph := {}
  names : List (String × Nat) := []
deriving Inhabited, Repr

namespace Workspace

/-- The node of a name. -/
def find (w : Workspace) (id : String) : Except Fault Nat :=
  match w.names.lookup id with
  | some i => .ok i
  | none => .error (.noNode id)

/-- Gives a node a name. -/
def call (w : Workspace) (id : String) (i : Nat) : Workspace :=
  { w with names := (id, i) :: w.names }

/-- The key of the parent that a node is linked to. -/
def parentKey (g : Graph) (i : Nat) : Option String :=
  ((g.get? i).bind (·.parent)).bind fun p => (g.get? p).map (·.key)

/-- One step: what it shows, and the workspace after it. -/
def step (w : Workspace) : Step → Except Fault (Answer × Workspace)
  | .new id key isDir value =>
    let (i, g) := w.graph.new key isDir value
    .ok (.done, { w with graph := g }.call id i)
  | .info id => do
    let i ← w.find id
    return (.info (w.graph.vertex i) (parentKey w.graph i), w)
  | .describe id => do
    let i ← w.find id
    return (.text (w.graph.vertex i).describe, w)
  | .addChild id child => do
    let g ← w.graph.addChild (← w.find id) (← w.find child)
    return (.done, { w with graph := g })
  | .removeChild id name => do
    let (removed, g) := w.graph.removeChild (← w.find id) name
    let w := { w with graph := g }
    match removed with
    | some i => return (.removed (g.view i) (parentKey g i), w)
    | none => return (.done, w)
  | .getChild id name => do
    return (.node ((w.graph.child? (← w.find id) name).map w.graph.view), w)
  | .getChildren id sorted => do
    return (.keys (((w.graph.view (← w.find id)).listing sorted).map (·.key)), w)
  | .iterate id => do
    return (.keys ((w.graph.view (← w.find id)).subtree.map (·.key)), w)
  | .clone id depth sorted copy => do
    let (i, g) := w.graph.clone (← w.find id) depth sorted
    let w := { w with graph := g }
    return (.node (some (g.view i)), match copy with
      | some id => w.call id i
      | none => w)
  | .setValue id value => do
    return (.done, { w with graph := w.graph.setValue (← w.find id) value })
  | .view id => do return (.node (some (w.graph.view (← w.find id))), w)

end Workspace

end Graph

end TreeStore
