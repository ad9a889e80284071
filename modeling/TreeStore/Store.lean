import TreeStore.Config
import TreeStore.Resolution
import TreeStore.Result
import TreeStore.Stats

/-!
# The store

A store is a graph of nodes whose first node is the root directory `/`, the counters of its
operations and the lock that guards the tree.  Every operation runs its body while it holds a side
of the lock and gives it back however the body ends; a body checks all its conditions before its
first change of the graph.  `perform` is a whole operation: the body, then one count for its success
or its refusal.

A call keeps the changes that were made before it failed, so that a failure which changes nothing is
a fact about the bodies and not about the way calls are composed.
-/

namespace TreeStore

/-- A store. -/
structure Store where
  config : Config := {}
  graph : Graph := Graph.rooted
  stats : Stats := {}
  lock : Lock := {}
deriving Inhabited, Repr

/-- An operation that is counted, with its arguments. -/
inductive Request where
  | get (key : String) (recursive : Bool) (sorted : Option Bool)
  | create (key : String) (isDir : Bool) (value : Option String)
  | set (key : String) (isDir : Bool) (value : Option String)
  | update (key : String) (value : Option String)
  | delete (key : String) (recursive dir : Bool)
deriving DecidableEq, Inhabited, Repr

def Request.action : Request → Action
  | get .. => .get
  | create .. => .create
  | set .. => .set
  | update .. => .update
  | delete .. => .delete

def Request.key : Request → String
  | get k .. | create k .. | set k .. | update k _ | delete k .. => k

namespace Store

/-- A call on a store: it may fail, and its changes stay in either case. -/
abbrev Call (α : Type) := EStateM Fault Store α

/-- Ends the call with a refusal, whose message is the one registered now. -/
def refuse {α : Type} (messages : Messages) (code : Int) (cause : String) : Call α :=
  throw (.refused (messages.error code cause))

def ofExcept {α : Type} : Except Fault α → Call α
  | .ok a => pure a
  | .error f => throw f

/-- Runs a body while a side of the lock is held, and gives it back however the body ends. -/
def locked {α : Type} (side : Lock.Side) (body : Call α) : Call α := fun s =>
  match s.lock.tryAcquire? side with
  | none => .error .stuck s
  | some l =>
    match body { s with lock := l } with
    | .ok a s' =>
      match s'.lock.release? side with
      | some l => .ok a { s' with lock := l }
      | none => .error (.unmatchedRelease side) s'
    | .error f s' =>
      match s'.lock.release? side with
      | some l => .error f { s' with lock := l }
      | none => .error (.unmatchedRelease side) s'

/-! ### Steps on the nodes -/

/-- The node of a number. -/
def vertex (i : Nat) : Call Vertex := return (← get).graph.vertex i

/-- Walks a key from the root. -/
def resolve (key : String) : Call (Resolution Nat) :=
  return (← get).graph.resolve Graph.rootId key

/-- A copy of a node with all that is below it. -/
def snapshot (i : Nat) : Call Node := return ((← get).graph.view i).clone none false

/-- Adds a node that stands alone. -/
def newNode (key : String) (isDir : Bool) (value : Option String) : Call Nat := fun s =>
  let (i, g) := s.graph.new key isDir value
  .ok i { s with graph := g }

/-- Puts a node into a directory. -/
def attach (directory child : Nat) : Call Unit := fun s =>
  match s.graph.addChild directory child with
  | .ok g => .ok () { s with graph := g }
  | .error f => .error f s

/-- Takes the child of a name out of a directory. -/
def detach (directory : Nat) (name : String) : Call Unit :=
  modify fun s => { s with graph := (s.graph.removeChild directory name).2 }

/-- Changes the value of a node. -/
def setValue (i : Nat) (value : Option String) : Call Unit :=
  modify fun s => { s with graph := s.graph.setValue i value }

/-- The directory that a node is linked to. -/
def parentOf (v : Vertex) : Call Nat :=
  match v.parent with
  | some p => pure p
  | none => throw (.noParent v.key)

/-! ### Bodies -/

/-- The node at the end of a walk. -/
def locate (messages : Messages) (path : String) : Resolution Nat → Call Nat
  | .found node _ => pure node
  | .blocked leaf .. => do refuse messages ErrorCode.notDir (← vertex leaf).key
  | .missing .. => refuse messages ErrorCode.notExists path

/-- Creates the missing names of a path one below the other, directories first and the node itself
as the last; gives the number of the node. -/
def build (path : String) (isDir : Bool) (value : Option String) :
    (names : List String) → (parent : Nat) → Call Nat
  | name :: next :: more, parent => do
    let directory ← newNode (Path.join (← vertex parent).key name) true none
    attach parent directory
    build path isDir value (next :: more) directory
  | [_], parent | [], parent => do
    let node ← newNode path isDir value
    attach parent node
    return node

/-- Reads a node: with all that is below it, or with its direct children only. -/
def readNode (messages : Messages) (key : String) (recursive sorted : Bool) : Call Node := do
  let node ← locate messages (Path.normalize key) (← resolve key)
  return ((← get).graph.view node).clone (if recursive then none else some 1) sorted

/-- Creates a node and the directories above it that are missing. -/
def createNode (messages : Messages) (key : String) (isDir : Bool) (value : Option String) :
    Call Result := do
  match ← resolve key with
  | .found .. => refuse messages ErrorCode.exists (Path.normalize key)
  | .blocked leaf .. => refuse messages ErrorCode.notDir (← vertex leaf).key
  | .missing parent names =>
    let node ← build (Path.normalize key) isDir value names parent
    ofExcept (Result.make .create (← snapshot node))

/-- Creates a node or replaces the one at its place, whatever its kind, with all that is below
it. -/
def setNode (messages : Messages) (key : String) (isDir : Bool) (value : Option String) :
    Call Result := do
  let resolution ← resolve key
  if Path.normalize key = "/" then
    refuse messages ErrorCode.rootReadOnly "/"
  else
    match resolution with
    | .blocked leaf .. => refuse messages ErrorCode.notDir (← vertex leaf).key
    | .missing parent names =>
      let node ← build (Path.normalize key) isDir value names parent
      ofExcept (Result.make .set (← snapshot node))
    | .found old _ =>
      let prev ← snapshot old
      let node ← newNode (← vertex old).key isDir value
      attach (← parentOf (← vertex old)) node
      ofExcept (Result.make .set (← snapshot node) (some prev))

/-- Changes the value of a leaf. -/
def updateNode (messages : Messages) (key : String) (value : Option String) : Call Result := do
  let node ← locate messages (Path.normalize key) (← resolve key)
  if (← vertex node).isDir then
    refuse messages ErrorCode.notFile (← vertex node).key
  else
    let prev ← snapshot node
    setValue node value
    ofExcept (Result.make .update (← snapshot node) (some prev))

/-- Removes a node: a directory with children only if `recursive`, a leaf only unless `dir`. -/
def deleteNode (messages : Messages) (key : String) (recursive dir : Bool) : Call Result := do
  let resolution ← resolve key
  if Path.normalize key = "/" then
    refuse messages ErrorCode.rootReadOnly "/"
  else
    let node ← locate messages (Path.normalize key) resolution
    let v ← vertex node
    if dir && !v.isDir then
      refuse messages ErrorCode.notDir v.key
    else if !v.children.isEmpty && !recursive then
      refuse messages ErrorCode.dirNotEmpty v.key
    else
      let last ← snapshot node
      detach (← parentOf v) v.name
      ofExcept (Result.make .delete last (some (last.clone none false)))

/-! ### Whole operations -/

/-- Listings are sorted unless a call says otherwise. -/
def sortsListings (s : Store) : Bool := s.config.sortedListing.truthy

/-- The operation of a request under its side of the lock. -/
def operation (messages : Messages) : Request → Call Result
  | .get key recursive sorted => do
    let sorted := sorted.getD (← get).sortsListings
    let node ← locked .read (readNode messages key recursive sorted)
    ofExcept (Result.make .get node)
  | .create key isDir value => locked .write (createNode messages key isDir value)
  | .set key isDir value => locked .write (setNode messages key isDir value)
  | .update key value => locked .write (updateNode messages key value)
  | .delete key recursive dir => locked .write (deleteNode messages key recursive dir)

/-- The store with one more call counted. -/
def count (s : Store) (a : Action) (ok : Bool) : Store := { s with stats := s.stats.record a ok }

/-- Runs an operation and counts its success or its refusal. -/
def perform (messages : Messages) (r : Request) : Call Result := fun s =>
  match operation messages r s with
  | .ok result s' => .ok result (s'.count r.action true)
  | .error (.refused e) s' => .error (.refused e) (s'.count r.action false)
  | .error f s' => .error f s'

/-- A node lives at the key. -/
def exists? (key : String) : Call Bool :=
  locked .read do return ((← get).graph.find? Graph.rootId key).isSome

/-- The number of nodes below the root. -/
def size : Call Nat :=
  locked .read do return ((← get).graph.view Graph.rootId).subtree.length - 1

/-- What a request writes to the log once it is counted: each change and each refusal one line. -/
def logLine (r : Request) : Except Fault Result → Option String
  | .error (.refused e) => some (r.action.name ++ " failed: " ++ e.text)
  | .error _ => none
  | .ok result =>
    match r with
    | .get .. => none
    | .create _ isDir _ => some ("create " ++ result.node.key ++ " dir=" ++ Json.displayBool isDir)
    | .set _ isDir _ =>
      match result.prev with
      | none => some ("set " ++ result.node.key ++ " (new) dir=" ++ Json.displayBool isDir)
      | some prev =>
        some ("set " ++ result.node.key ++ " dir=" ++ Json.displayBool isDir ++ " (was dir=" ++
          Json.displayBool prev.isDir ++ ")")
    | .update .. => some ("update " ++ result.node.key)
    | .delete _ recursive _ =>
      some ("delete " ++ result.node.key ++ " recursive=" ++ Json.displayBool recursive)

/-- The outcome of a call and the store after it. -/
def run {α : Type} (call : Call α) (s : Store) : Except Fault α × Store :=
  match call s with
  | .ok a s' => (.ok a, s')
  | .error f s' => (.error f, s')

end Store

end TreeStore
