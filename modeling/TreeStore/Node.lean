import TreeStore.Path

/-!
# Nodes

A node is a leaf with an optional value or a directory with ordered children.  Each node carries its
full key; a directory knows its children by their names, the last parts of their keys.  A leaf
without a value and a leaf with the empty value are different nodes.

* `child?`, `at?` look one name down and a whole path down;
* `place` is the one way a child enters a directory: a sibling of the same name gives up its
  position to it, otherwise it becomes the last child;
* `clone` copies a node down to a depth, with the children in their order or sorted by name;
* `subtree` lists a node and everything below it, depth first.
-/

namespace TreeStore

/-- A directory or a leaf of the tree, with its full key. -/
inductive Node where
  | leaf (key : String) (value : Option String)
  | dir (key : String) (children : List Node)
deriving Inhabited, Repr, BEq

namespace Node

/-- The node of the given kind without children; a directory has no value. -/
def mk (key : String) (isDir : Bool) (value : Option String) : Node :=
  if isDir then dir key [] else leaf key value

def key : Node → String
  | leaf k _ | dir k _ => k

def isDir : Node → Bool
  | leaf .. => false
  | dir .. => true

def value : Node → Option String
  | leaf _ v => v
  | dir .. => none

def children : Node → List Node
  | leaf .. => []
  | dir _ cs => cs

/-- The last part of the key, `""` for the root. -/
def name (n : Node) : String := Path.baseName n.key

def isRoot (n : Node) : Bool := n.key == "/"

/-- The child with the given name. -/
def child? (n : Node) (name : String) : Option Node := n.children.find? (·.name == name)

/-- The node a list of names below this one. -/
def at? (n : Node) : List String → Option Node
  | [] => some n
  | s :: ss => (n.child? s).bind (·.at? ss)

/-! ### Changing the children -/

/-- Puts a child among siblings: in place of the one with its name, else last. -/
def place (child : Node) : List Node → List Node
  | [] => [child]
  | c :: cs => if c.name = child.name then child :: cs else c :: place child cs

/-- The directory with one more child; `none` for a leaf, which takes no children. -/
def addChild? (n child : Node) : Option Node :=
  match n with
  | leaf .. => none
  | dir k cs => some (dir k (place child cs))

/-- The leaf with another value; a directory has none to change. -/
def setValue (n : Node) (value : Option String) : Node :=
  match n with
  | leaf k _ => leaf k value
  | dir k cs => dir k cs

/-- The nodes in the order of their names, by code points. -/
def sortByName (ns : List Node) : List Node := ns.mergeSort (fun a b => decide (a.name ≤ b.name))

/-- The children in their own order, or in the order of their names. -/
def listing (n : Node) (sorted : Bool) : List Node :=
  if sorted then sortByName n.children else n.children

/-! ### Whole subtrees -/

/-- How many levels of children a copy has: all of them, or a number, where less than one means
none. -/
abbrev Depth := Option Int

/-- There are children to copy. -/
def Depth.reaches : Depth → Bool
  | none => true
  | some d => 0 < d

/-- The depth that is left one level down. -/
def Depth.below : Depth → Depth := Option.map (· - 1)

mutual
/-- A copy with `depth` levels of children, each level in its order or sorted by name. -/
def clone (depth : Depth) (sorted : Bool) : Node → Node
  | leaf k v => leaf k v
  | dir k cs =>
    if depth.reaches then
      let copies := cloneAll depth.below sorted cs
      dir k (if sorted then sortByName copies else copies)
    else dir k []

/-- The copies of some siblings. -/
def cloneAll (depth : Depth) (sorted : Bool) : List Node → List Node
  | [] => []
  | c :: cs => clone depth sorted c :: cloneAll depth sorted cs
end

mutual
/-- The node and all its descendants, each directory before what it holds. -/
def subtree : Node → List Node
  | leaf k v => [leaf k v]
  | dir k cs => dir k cs :: subtreeAll cs

/-- The subtrees of some siblings, one after the other. -/
def subtreeAll : List Node → List Node
  | [] => []
  | c :: cs => subtree c ++ subtreeAll cs
end

/-! ### First equations -/

@[simp] theorem at?_nil (n : Node) : n.at? [] = some n := rfl

theorem at?_cons (n : Node) (s : String) (ss : List String) :
    n.at? (s :: ss) = (n.child? s).bind (·.at? ss) := rfl

@[simp] theorem key_setValue (n : Node) (v : Option String) : (n.setValue v).key = n.key := by
  cases n <;> rfl

theorem cloneAll_eq_map (depth : Depth) (sorted : Bool) (cs : List Node) :
    cloneAll depth sorted cs = cs.map (clone depth sorted) := by
  induction cs with
  | nil => rfl
  | cons c cs ih => simp [cloneAll, ih]

theorem subtreeAll_eq_flatMap (cs : List Node) : subtreeAll cs = cs.flatMap subtree := by
  induction cs with
  | nil => rfl
  | cons c cs ih => simp [subtreeAll, ih]

@[simp] theorem key_clone (depth : Depth) (sorted : Bool) (n : Node) :
    (n.clone depth sorted).key = n.key := by
  cases n with
  | leaf k v => rfl
  | dir k cs => rw [clone]; split <;> rfl

end Node

end TreeStore
