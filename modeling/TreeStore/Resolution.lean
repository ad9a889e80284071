import TreeStore.Graph

/-!
# Resolving a key

`resolve` walks the segments of a key from a node down, one name at a time, and ends in one of three
ways: the node is there, a directory on the way lacks the next name, or a leaf stands where a
directory is needed.  It reads the graph and changes nothing.
-/

namespace TreeStore

/-- How the walk along a path ended. -/
inductive Resolution (α : Type) where
  /-- The whole path exists. -/
  | found (node : α) (parent : Option α)
  /-- The first of `names` is missing in the directory `parent`. -/
  | missing (parent : α) (names : List String)
  /-- A leaf where a directory was needed; `names` starts with the leaf's own segment. -/
  | blocked (leaf : α) (parent : Option α) (names : List String)
deriving Inhabited, Repr

namespace Resolution

variable {α β : Type}

/-- The deepest directory of the path that exists and holds what comes next. -/
def parent? : Resolution α → Option α
  | found _ p | blocked _ p _ => p
  | missing p _ => some p

/-- The node, if the whole path exists. -/
def node? : Resolution α → Option α
  | found n _ => some n
  | _ => none

/-- The leaf in the way. -/
def blockedBy? : Resolution α → Option α
  | blocked l _ _ => some l
  | _ => none

/-- The names below the parent that do not exist. -/
def names : Resolution α → List String
  | found .. => []
  | missing _ ns | blocked _ _ ns => ns

/-- The same outcome in other words for the nodes. -/
def map (f : α → β) : Resolution α → Resolution β
  | found n p => found (f n) (p.map f)
  | missing p ns => missing (f p) ns
  | blocked l p ns => blocked (f l) (p.map f) ns

end Resolution

namespace Graph

/-- The walk from `current`, which was reached by the name `via`.  A first node that is itself a
leaf has no name of its own, and then only the last name of the path is kept. -/
def walk (g : Graph) (via : Option String) (current : Nat) : List String → Resolution Nat
  | [] => .found current (g.vertex current).parent
  | s :: ss =>
    if (g.vertex current).isDir then
      match g.child? current s with
      | some child => g.walk (some s) child ss
      | none => .missing current (s :: ss)
    else
      match via with
      | some v => .blocked current (g.vertex current).parent (v :: s :: ss)
      | none => .blocked current (g.vertex current).parent [(s :: ss).getLast (by simp)]

@[simp] theorem walk_nil (g : Graph) (via : Option String) (current : Nat) :
    g.walk via current [] = .found current (g.vertex current).parent := rfl

theorem walk_child {g : Graph} {via : Option String} {current child : Nat} {s : String}
    (hd : (g.vertex current).isDir = true) (hc : g.child? current s = some child)
    (ss : List String) : g.walk via current (s :: ss) = g.walk (some s) child ss := by
  simp [walk, hd, hc]

theorem walk_absent {g : Graph} {via : Option String} {current : Nat} {s : String}
    (hd : (g.vertex current).isDir = true) (hc : g.child? current s = none) (ss : List String) :
    g.walk via current (s :: ss) = .missing current (s :: ss) := by
  simp [walk, hd, hc]

theorem walk_leaf {g : Graph} {via : Option String} {current : Nat}
    (hd : (g.vertex current).isDir = false) (s : String) (ss : List String) :
    ∃ names, g.walk via current (s :: ss) = .blocked current (g.vertex current).parent names := by
  cases via with
  | none => exact ⟨_, by simp [walk, hd]; rfl⟩
  | some v => exact ⟨v :: s :: ss, by simp [walk, hd]⟩

/-- Walks a key from a root. -/
def resolve (g : Graph) (root : Nat) (key : String) : Resolution Nat :=
  g.walk none root (Path.split (Path.normalize key))

/-- The node a key stands for. -/
def find? (g : Graph) (root : Nat) (key : String) : Option Nat := (g.resolve root key).node?

end Graph

/-- Walks a key from the root of a tree. -/
def Node.resolve (root : Node) (key : String) : Resolution Node :=
  let (i, g) := Graph.plant {} none root
  (g.resolve i key).map g.view

/-- The node a key stands for. -/
def Node.find? (root : Node) (key : String) : Option Node := (root.resolve key).node?

end TreeStore
