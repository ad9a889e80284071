import TreeStore.Error
import TreeStore.Lock

/-!
# Faults

What can end a call early: a refusal of the store, which callers expect, or one of the faults that
guard the parts the store is built from.
-/

namespace TreeStore

/-- Why a call did not return. -/
inductive Fault where
  /-- The store refused the operation. -/
  | refused (error : StoreError)
  /-- A child was given to the leaf with this key. -/
  | childOfLeaf (key : String)
  /-- A node without a directory above it was to be replaced or removed. -/
  | noParent (key : String)
  /-- There is no action of this name. -/
  | unknownAction (name : String)
  /-- There is no counter for an action of this name. -/
  | unknownCounter (name : String)
  /-- The two states of one result have different keys. -/
  | keysDiffer (node prev : String)
  /-- A side of the lock was released that is not held. -/
  | unmatchedRelease (side : Lock.Side)
  /-- The lock would never come free, because the caller itself holds it. -/
  | stuck
  /-- A handler raised an error. -/
  | raised (message : String)
  /-- A handler meant to change the value of something that has none. -/
  | noValue
  /-- There is no store of this number. -/
  | noStore (index : Nat)
  /-- There is no node of this name. -/
  | noNode (name : String)
  /-- Handlers called each other too deeply. -/
  | tooDeep
deriving DecidableEq, Inhabited, Repr

/-- The fault in words. -/
def Fault.message : Fault → String
  | refused e => e.text
  | childOfLeaf key => "Cannot add child to leaf " ++ key
  | noParent key => "No parent directory: " ++ key
  | unknownAction name => "Unknown action: " ++ Text.quoted name
  | unknownCounter name => Text.quoted name
  | keysDiffer node prev =>
    "Snapshot keys differ: " ++ Text.quoted node ++ " != " ++ Text.quoted prev
  | unmatchedRelease side =>
    "release_" ++ side.name ++ " without matching acquire_" ++ side.name
  | stuck => "Lock is held by the caller"
  | raised message => message
  | noValue => "No value to change"
  | noStore index => "No store " ++ toString index
  | noNode name => Text.quoted name
  | tooDeep => "Too many nested calls"

/-- The store error of a refusal; no other fault has one. -/
def Fault.error? : Fault → Option StoreError
  | refused e => some e
  | _ => none

/-- The fault is a refusal of the store. -/
def Fault.isRefusal (f : Fault) : Bool := f.error?.isSome

/-- The fault is a refusal with the given code. -/
def Fault.hasCode (f : Fault) (code : Int) : Bool := f.error?.any (·.code == code)

end TreeStore
