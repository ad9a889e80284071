import TreeStore.Answer
import TreeStore.Log.Levels
import TreeStore.Store

/-!
# Several stores

A pool holds stores and message tables.  Each store uses one of the tables; several stores may use
the same one.  A command acts on one store, or on the table it uses, and involves no handlers:
running a list of commands is the plain meaning that runs with handlers are compared with.
-/

namespace TreeStore

/-- A store and the number of the table it uses. -/
structure Member where
  store : Store
  registry : Nat
deriving Inhabited, Repr

/-- Stores and message tables. -/
structure Pool where
  members : List Member := []
  registries : List Messages := []
deriving Inhabited, Repr

/-- A call on one store without its events. -/
inductive Command where
  | request (r : Request)
  | exists (key : String)
  | size
  | stats
  | total
  | reset
  | registry (c : RegistryCall)
deriving DecidableEq, Inhabited, Repr

/-- The table a new store is to use: the shared one, one of its own, or the one in its
configuration. -/
inductive RegistryChoice where
  | shared
  | own (messages : List (Int × String))
  | configured
deriving DecidableEq, Inhabited, Repr

namespace Pool

/-- The messages of a table. -/
def messages (p : Pool) (registry : Nat) : Messages := p.registries.getD registry Messages.empty

/-- The pool with another store in the place of one member. -/
def setStore (p : Pool) (i : Nat) (m : Member) (s : Store) : Pool :=
  { p with members := p.members.set i { m with store := s } }

/-- Runs a command on the store with the given number. -/
def run (p : Pool) (i : Nat) (c : Command) : Except Fault Answer × Pool :=
  match p.members[i]? with
  | none => (.error (.noStore i), p)
  | some m =>
    match c with
    | .request r =>
      let (outcome, s) := Store.run (Store.perform (p.messages m.registry) r) m.store
      (outcome.map .result, p.setStore i m s)
    | .exists key =>
      let (outcome, s) := Store.run (Store.exists? key) m.store
      (outcome.map .flag, p.setStore i m s)
    | .size =>
      let (outcome, s) := Store.run Store.size m.store
      (outcome.map .count, p.setStore i m s)
    | .stats => (.ok (.stats m.store.stats), p)
    | .total => (.ok (.count m.store.stats.total), p)
    | .reset => (.ok .done, p.setStore i m { m.store with stats := {} })
    | .registry c =>
      let (answer, messages) := c.run (p.messages m.registry)
      (.ok answer, { p with registries := p.registries.set m.registry messages })

/-- Runs commands one after the other, each on the store with its number. -/
def runAll (p : Pool) : List (Nat × Command) → List (Except Fault Answer) × Pool
  | [] => ([], p)
  | (i, c) :: rest =>
    let (outcome, p) := p.run i c
    let (outcomes, p) := p.runAll rest
    (outcome :: outcomes, p)

/-- Two stores use the same table. -/
def sameRegistry (p : Pool) (i j : Nat) : Bool :=
  match p.members[i]?, p.members[j]? with
  | some m, some n => m.registry == n.registry
  | _, _ => false

/-- The pool with one more store.  The first table is the shared one. -/
def add (p : Pool) (config : Config) (choice : RegistryChoice) : Pool :=
  let new (messages : Messages) : Pool :=
    { members := p.members ++ [⟨{ config := config }, p.registries.length⟩]
      registries := p.registries ++ [messages] }
  match choice with
  | .shared => { p with members := p.members ++ [⟨{ config := config }, 0⟩] }
  | .own list => new (Messages.ofList list)
  | .configured => new config.messages

/-- A pool without stores and with a shared table. -/
def withShared (shared : List (Int × String)) : Pool := { registries := [Messages.ofList shared] }

/-- A new store sets the level of the logger of all stores, if its configuration names one. -/
def levelsFor (levels : Log.Levels) (config : Config) : Log.Levels :=
  match config.logLevel with
  | some l => levels.set Log.storeLogger l.value
  | none => levels

end Pool

end TreeStore
