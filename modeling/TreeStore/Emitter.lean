import TreeStore.Association

/-!
# Registrations of handlers

An emitter keeps, for each event, the handlers registered for it in their order.  A registration is
either plain, and then known by its handler, or for one call only, and then it has an identity of
its own: removing a handler leaves its one-time registrations alone.  An event that was never
registered and one whose registrations are all gone look the same.
-/

namespace TreeStore

/-- A handler's entry for an event. -/
inductive Registration where
  | plain (handler : String)
  | once (id : Nat) (handler : String)
deriving DecidableEq, Inhabited, Repr

/-- The handler that is called. -/
def Registration.handler : Registration → String
  | plain h | once _ h => h

/-- The registrations of each event. -/
structure Emitter where
  table : List (String × List Registration) := []
deriving DecidableEq, Inhabited, Repr

namespace Emitter

/-- The registrations of an event, in order. -/
def listeners (e : Emitter) (event : String) : List Registration := (e.table.lookup event).getD []

/-- Adds a registration behind those of its event. -/
def insert (event : String) (r : Registration) :
    List (String × List Registration) → List (String × List Registration)
  | [] => [(event, [r])]
  | t :: ts => if t.1 = event then (t.1, t.2 ++ [r]) :: ts else t :: insert event r ts

/-- Registers for an event. -/
def on (e : Emitter) (event : String) (r : Registration) : Emitter := ⟨insert event r e.table⟩

/-- Removes a registration from an event, as often as it occurs there. -/
def off (e : Emitter) (event : String) (r : Registration) : Emitter :=
  ⟨e.table.map fun t => if t.1 = event then (t.1, t.2.filter (· ≠ r)) else t⟩

/-- Removes all registrations of an event. -/
def clear (e : Emitter) (event : String) : Emitter := ⟨e.table.filter (·.1 ≠ event)⟩

/-- The number of registrations of an event. -/
def count (e : Emitter) (event : String) : Nat := (e.listeners event).length

/-! ### What a change does to the registrations -/

theorem lookup_insert (event event' : String) (r : Registration)
    (ts : List (String × List Registration)) :
    (insert event r ts).lookup event' =
      if event' = event then some ((ts.lookup event).getD [] ++ [r]) else ts.lookup event' := by
  induction ts with
  | nil => simp [insert, lookup_entry]
  | cons t ts ih =>
    obtain ⟨key, rs⟩ := t
    by_cases hkey : key = event
    · subst hkey
      simp only [insert, if_pos, lookup_entry]
      split <;> simp
    · simp only [insert, if_neg hkey, lookup_entry, ih, if_neg (Ne.symm hkey)]
      split <;> split <;> simp_all

variable (e : Emitter) (event event' : String) (r : Registration)

theorem listeners_on : (e.on event r).listeners event' =
    if event' = event then e.listeners event' ++ [r] else e.listeners event' := by
  unfold listeners on
  rw [lookup_insert]
  split <;> simp_all

theorem listeners_off : (e.off event r).listeners event' =
    if event' = event then (e.listeners event').filter (· ≠ r) else e.listeners event' := by
  obtain ⟨ts⟩ := e
  unfold listeners off
  simp only
  induction ts with
  | nil => simp
  | cons t ts ih =>
    obtain ⟨key, rs⟩ := t
    rw [List.map_cons, lookup_entry]
    by_cases hkey : key = event
    · simp only [if_pos hkey, lookup_entry]
      split <;> simp_all
    · simp only [if_neg hkey, lookup_entry]
      split <;> simp_all

theorem listeners_clear : (e.clear event).listeners event' =
    if event' = event then [] else e.listeners event' := by
  unfold listeners clear
  rw [lookup_filter_ne]
  split <;> rfl

end Emitter

end TreeStore
