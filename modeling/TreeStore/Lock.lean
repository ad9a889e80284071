/-!
# The readers-writer lock

Many readers or one writer.  A writer that waits keeps new readers out, so that a stream of readers
cannot starve it.  A lock is its three counters; `mustWait` is the condition on which an acquisition
of a side waits, and `release` refuses a side that is not held.
-/

namespace TreeStore

namespace Lock

/-- The two ways to hold the lock. -/
inductive Side where
  | read
  | write
deriving DecidableEq, Inhabited, Repr

def Side.name : Side → String
  | read => "read"
  | write => "write"

end Lock

/-- The counters of the lock: readers that hold it, a writer that holds it, writers that wait. -/
structure Lock where
  readers : Nat := 0
  writer : Bool := false
  writersWaiting : Nat := 0
deriving DecidableEq, Inhabited, Repr

namespace Lock

/-- Nobody holds the lock and no writer waits for it. -/
def free : Lock := {}

/-- Somebody holds the lock. -/
def isLocked (l : Lock) : Bool := l.writer || 0 < l.readers

/-- An acquisition of the side has to wait. -/
def mustWait (l : Lock) : Side → Bool
  | .read => l.writer || 0 < l.writersWaiting
  | .write => l.writer || 0 < l.readers

/-- The side is held. -/
def holds (l : Lock) : Side → Bool
  | .read => 0 < l.readers
  | .write => l.writer

/-- The lock after the side was granted. -/
def grant (l : Lock) : Side → Lock
  | .read => { l with readers := l.readers + 1 }
  | .write => { l with writer := true }

/-- Takes the side if that needs no waiting. -/
def tryAcquire? (l : Lock) (side : Side) : Option Lock :=
  if l.mustWait side then none else some (l.grant side)

/-- Gives the side back; `none` if it is not held. -/
def release? (l : Lock) (side : Side) : Option Lock :=
  if l.holds side then
    match side with
    | .read => some { l with readers := l.readers - 1 }
    | .write => some { l with writer := false }
  else none

/-- A release of the side wakes those who wait: always for a writer, for a reader if it was the
last. -/
def wakes (l : Lock) : Side → Bool
  | .read => l.readers == 1
  | .write => true

theorem tryAcquire?_free (side : Side) : free.tryAcquire? side = some (free.grant side) := by
  cases side <;> rfl

theorem release?_grant_free (side : Side) : (free.grant side).release? side = some free := by
  cases side <;> rfl

end Lock

end TreeStore
