import TreeStore.Lock.Monitor

/-!
# Workers on a lock

Workers acquire and release a lock one after the other; between two steps everybody who was notified
wakes up, so that the outcome of a step is settled before the next one.
-/

namespace TreeStore.Lock

/-- A step of the workers. -/
inductive WorkerStep where
  /-- A new worker acquires a side and keeps it. -/
  | acquire (side : Side)
  /-- Some worker gives a side back. -/
  | release (side : Side)
  /-- A new worker runs a body while it holds a side; the body fails if `fails`. -/
  | hold (side : Side) (fails : Bool)
deriving DecidableEq, Inhabited, Repr

/-- What a step shows. -/
inductive WorkerAnswer where
  /-- The sides granted in this step, readers first. -/
  | granted (sides : List Side)
  /-- Whether the lock was held inside the body. -/
  | seen (locked : Bool)
  /-- The body failed while the side was held. -/
  | bodyFailed (side : Side)
  /-- The side was not held. -/
  | unmatched (side : Side)
deriving DecidableEq, Inhabited, Repr

/-- The monitor and the name of the next worker. -/
structure Workers where
  monitor : Monitor := {}
  next : Nat := 0
deriving DecidableEq, Inhabited, Repr

namespace Workers

/-- Readers first. -/
def inOrder (sides : List Side) : List Side :=
  sides.filter (· = .read) ++ sides.filter (· = .write)

/-- Gives a side back and lets everybody who is notified wake. -/
def giveBack (w : Workers) (side : Side) : WorkerAnswer × Workers :=
  match w.monitor.release side with
  | (.unmatched side, m) => (.unmatched side, { w with monitor := m })
  | (_, m) =>
    let (granted, m) := m.settle
    (.granted (inOrder granted), { w with monitor := m })

/-- One step, settled. -/
def step (w : Workers) : WorkerStep → WorkerAnswer × Workers
  | .acquire side =>
    let (outcome, m) := w.monitor.enter w.next side
    let w := { monitor := m, next := w.next + 1 }
    match outcome with
    | .granted side => (.granted [side], w)
    | _ => (.granted [], w)
  | .release side => w.giveBack side
  | .hold side fails =>
    let (outcome, m) := w.monitor.enter w.next side
    let w := { monitor := m, next := w.next + 1 }
    match outcome with
    | .granted side =>
      let locked := m.lock.isLocked
      let (_, w) := w.giveBack side
      (if fails then .bodyFailed side else .seen locked, w)
    | _ => (.granted [], w)

/-- The sides for which workers still wait, readers first. -/
def waiting (w : Workers) : List Side := inOrder (w.monitor.waiters.map (·.side))

end Workers

end TreeStore.Lock
