import TreeStore.Result
import TreeStore.Stats
import TreeStore.Messages

/-!
# Answers, and the calls on a message table

An answer is whatever a call gives back when it does not fail.  `RegistryCall.run` is the meaning of
the calls on a table of messages.
-/

namespace TreeStore

/-- What a call gives back. -/
inductive Answer where
  | done
  | flag (b : Bool)
  | count (n : Nat)
  /-- The number of a log level. -/
  | level (value : Int)
  | text (s : String)
  | result (r : Result)
  | error (e : StoreError)
  | messages (m : Messages)
  | stats (s : Stats)
deriving Inhabited, Repr

/-- A call on a table of messages. -/
inductive RegistryCall where
  | get (code : Int)
  | merge (messages : List (Int × String))
  | replace (messages : List (Int × String))
  | snapshot
  | size
  | contains (code : Int)
  | newError (code : Int) (cause : String)
deriving DecidableEq, Inhabited, Repr

namespace RegistryCall

/-- The table after the call. -/
def next (m : Messages) : RegistryCall → Messages
  | merge list => m.insertAll list
  | replace list => Messages.ofList list
  | _ => m

/-- What the call gives back. -/
def answer (m : Messages) : RegistryCall → Answer
  | get code => .text (m.get code)
  | merge _ | replace _ => .flag true
  | snapshot => .messages m
  | size => .count m.size
  | contains code => .flag (m.contains code)
  | newError code cause => .error (m.error code cause)

/-- The answer of the call and the table after it. -/
def run (c : RegistryCall) (m : Messages) : Answer × Messages := (c.answer m, c.next m)

end RegistryCall

end TreeStore
