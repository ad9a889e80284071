import TreeStore.Lock

/-!
# The lock as a monitor

Acquisitions of the lock from many threads, taken apart into the sections that run without
interruption: an acquisition *enters*, and is granted or falls asleep; a release may *notify* all
who sleep; a notified acquisition *wakes*, tests its condition again, and is granted or falls asleep
once more.  A writer counts as waiting from its entry until it is granted.  Sections follow each
other in any order.
-/

namespace TreeStore.Lock

/-- An acquisition that has entered and is not granted yet. -/
structure Waiter where
  id : Nat
  side : Side
  notified : Bool := false
deriving DecidableEq, Inhabited, Repr

/-- The lock and those who wait for it, in the order of their entry. -/
structure Monitor where
  lock : Lock := {}
  waiters : List Waiter := []
deriving DecidableEq, Inhabited, Repr

/-- A section of an acquisition or a release. -/
inductive Move where
  | enter (id : Nat) (side : Side)
  | wake (id : Nat)
  | release (side : Side)
deriving DecidableEq, Inhabited, Repr

/-- What a section led to. -/
inductive Outcome where
  | granted (side : Side)
  | asleep (side : Side)
  | released (side : Side)
  /-- The side was not held. -/
  | unmatched (side : Side)
  /-- Nobody of this name was notified. -/
  | nobody
deriving DecidableEq, Inhabited, Repr

namespace Monitor

/-- One more writer waits. -/
def announce (l : Lock) : Side → Lock
  | .read => l
  | .write => { l with writersWaiting := l.writersWaiting + 1 }

/-- The side is granted to one who waited for it. -/
def grantWaiter (l : Lock) : Side → Lock
  | .read => l.grant .read
  | .write => { l.grant .write with writersWaiting := l.writersWaiting - 1 }

/-- The first section of an acquisition. -/
def enter (m : Monitor) (id : Nat) (side : Side) : Outcome × Monitor :=
  let l := announce m.lock side
  if l.mustWait side then
    (.asleep side, { lock := l, waiters := m.waiters ++ [{ id := id, side := side }] })
  else (.granted side, { m with lock := grantWaiter l side })

/-- A notified acquisition tests its condition again. -/
def wake (m : Monitor) (id : Nat) : Outcome × Monitor :=
  match m.waiters.find? fun w => w.id == id && w.notified with
  | none => (.nobody, m)
  | some w =>
    if m.lock.mustWait w.side then
      (.asleep w.side,
        { m with
          waiters := m.waiters.map fun v => if v.id = id then { v with notified := false } else v })
    else
      (.granted w.side,
        { lock := grantWaiter m.lock w.side, waiters := m.waiters.filter (·.id ≠ id) })

/-- Notifies everybody who sleeps. -/
def notifyAll (ws : List Waiter) : List Waiter := ws.map fun w => { w with notified := true }

/-- A release of a side. -/
def release (m : Monitor) (side : Side) : Outcome × Monitor :=
  match m.lock.release? side with
  | none => (.unmatched side, m)
  | some l =>
    (.released side,
      { lock := l, waiters := if m.lock.wakes side then notifyAll m.waiters else m.waiters })

/-- One section. -/
def step (m : Monitor) : Move → Outcome × Monitor
  | .enter id side => m.enter id side
  | .wake id => m.wake id
  | .release side => m.release side

/-- Those who have been notified and have not woken yet. -/
def notified (m : Monitor) : List Waiter := m.waiters.filter (·.notified)

/-- Lets some acquisitions wake one after the other; gives the sides granted. -/
def wakeAll (m : Monitor) : List Nat → List Side × Monitor
  | [] => ([], m)
  | id :: ids =>
    let (outcome, m) := m.wake id
    let (granted, m) := m.wakeAll ids
    match outcome with
    | .granted side => (side :: granted, m)
    | _ => (granted, m)

/-- Lets everybody who is notified wake, in the order of entry. -/
def settle (m : Monitor) : List Side × Monitor := m.wakeAll (m.notified.map (·.id))

end Monitor

end TreeStore.Lock
