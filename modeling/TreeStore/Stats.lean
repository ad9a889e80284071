import TreeStore.Action

/-!
# Operation counters

For each action one counter of the calls that succeeded and one of those that failed.
-/

namespace TreeStore

/-- One counter for each action. -/
structure Tally where
  get : Nat := 0
  set : Nat := 0
  update : Nat := 0
  create : Nat := 0
  delete : Nat := 0
deriving DecidableEq, Inhabited, Repr

namespace Tally

/-- The counter of an action. -/
def of (t : Tally) : Action → Nat
  | .get => t.get
  | .set => t.set
  | .update => t.update
  | .create => t.create
  | .delete => t.delete

/-- The counters with that of one action raised by one. -/
def bump (t : Tally) : Action → Tally
  | .get => { t with get := t.get + 1 }
  | .set => { t with set := t.set + 1 }
  | .update => { t with update := t.update + 1 }
  | .create => { t with create := t.create + 1 }
  | .delete => { t with delete := t.delete + 1 }

/-- The sum of the counters. -/
def total (t : Tally) : Nat := Action.all.foldl (fun n a => n + t.of a) 0

theorem of_bump (t : Tally) (a b : Action) :
    (t.bump a).of b = t.of b + if b = a then 1 else 0 := by
  cases a <;> cases b <;> rfl

end Tally

/-- The counters of a store. -/
structure Stats where
  success : Tally := {}
  fail : Tally := {}
deriving DecidableEq, Inhabited, Repr

namespace Stats

/-- Counts one call of an action. -/
def record (s : Stats) (a : Action) (ok : Bool) : Stats :=
  if ok then { s with success := s.success.bump a } else { s with fail := s.fail.bump a }

/-- Counts one call of the action with the given name; `none` if there is no such action. -/
def recordNamed? (s : Stats) (name : String) (ok : Bool) : Option Stats :=
  (Action.ofName? name).map (s.record · ok)

/-- All calls counted. -/
def total (s : Stats) : Nat := s.success.total + s.fail.total

/-- The counters with their names: for each action its successes, then its failures. -/
def counters (s : Stats) : List (String × Nat) :=
  Action.all.flatMap fun a =>
    [(a.name ++ "Success", s.success.of a), (a.name ++ "Fail", s.fail.of a)]

theorem recordNamed?_name (s : Stats) (a : Action) (ok : Bool) :
    s.recordNamed? a.name ok = some (s.record a ok) := by
  simp [recordNamed?, Action.ofName?_name]

end Stats

end TreeStore
