import TreeStore.Session

/-!
# A ledger of registrations

What emitters do, said without emitters.  A ledger has a list of registrations for each event of
each store, and beside it there is a stack of the emits that are under way.  A `Deed` is one thing
that is done to a ledger; `Dispatcher.Step` says when it can be done and what comes of it:

* registering appends to the list of the event, removing filters it or clears it, and counting gives
  its length;
* an emit starts with the list as it stands then, and from that moment on it is bound to it: its
  calls go through this list in order, and it ends after the last of them with their number, or with
  the first handler that raises;
* a call through a one-time registration first removes it from the list, and it only;
* between two calls nothing else is done on behalf of an emit, and while a handler is at work only
  what that handler does.
-/

namespace TreeStore

/-- The registrations of each event of each store. -/
abbrev Ledger := Nat → String → List Registration

/-- The ledger with another list for one event of one store. -/
def Ledger.write (L : Ledger) (store : Nat) (event : String) (rs : List Registration) : Ledger :=
  fun j e => if j = store ∧ e = event then rs else L j e

/-- Something that is done to a ledger or to the emits under way. -/
inductive Deed where
  | on (store : Nat) (event handler : String)
  | once (store : Nat) (event : String) (id : Nat) (handler : String)
  | off (store : Nat) (event handler : String)
  | clear (store : Nat) (event : String)
  | count (store : Nat) (event : String) (n : Nat)
  /-- An emit starts, with the registrations that it finds. -/
  | start (store : Nat) (event : String) (found : List Registration)
  /-- The innermost emit calls a handler through a registration. -/
  | call (store : Nat) (event : String) (r : Registration)
  /-- The handler that was called last returns. -/
  | returned
  /-- The handler that was called last raises, which ends its emit. -/
  | raised
  /-- The innermost emit ends and gives the number of registrations. -/
  | finish (n : Nat)
deriving DecidableEq, Repr

/-- An emit under way. -/
structure Emission where
  store : Nat
  event : String
  /-- The number of registrations that it found. -/
  size : Nat
  /-- The registrations that it has yet to call. -/
  waiting : List Registration
  /-- A handler that it called is at work. -/
  calling : Bool

/-- Somebody is at work who may do something of their own: the handler that the innermost emit
called, or whoever works outside of all emits. -/
def Working : List Emission → Prop
  | [] => True
  | e :: _ => e.calling = true

/-- A ledger, a bound on the identities that have been used, and the emits under way, the innermost
one first. -/
structure Dispatcher where
  ledger : Ledger
  fresh : Nat
  underWay : List Emission

namespace Dispatcher

/-- Nothing is registered. -/
def blank : Dispatcher := ⟨fun _ _ => [], 0, []⟩

/-- What can be done, and what comes of it. -/
inductive Step : Dispatcher → Deed → Dispatcher → Prop where
  | on {L : Ledger} {n : Nat} {K : List Emission} {i : Nat} {event handler : String}
      (atWork : Working K) :
      Step ⟨L, n, K⟩ (.on i event handler)
        ⟨L.write i event (L i event ++ [.plain handler]), n, K⟩
  | once {L : Ledger} {n : Nat} {K : List Emission} {i id : Nat} {event handler : String}
      (atWork : Working K) (unused : n ≤ id) :
      Step ⟨L, n, K⟩ (.once i event id handler)
        ⟨L.write i event (L i event ++ [.once id handler]), id + 1, K⟩
  | off {L : Ledger} {n : Nat} {K : List Emission} {i : Nat} {event handler : String}
      (atWork : Working K) :
      Step ⟨L, n, K⟩ (.off i event handler)
        ⟨L.write i event ((L i event).filter (· ≠ .plain handler)), n, K⟩
  | clear {L : Ledger} {n : Nat} {K : List Emission} {i : Nat} {event : String}
      (atWork : Working K) :
      Step ⟨L, n, K⟩ (.clear i event) ⟨L.write i event [], n, K⟩
  | count {L : Ledger} {n : Nat} {K : List Emission} {i : Nat} {event : String}
      (atWork : Working K) :
      Step ⟨L, n, K⟩ (.count i event (L i event).length) ⟨L, n, K⟩
  | start {L : Ledger} {n : Nat} {K : List Emission} {i : Nat} {event : String}
      (atWork : Working K) :
      Step ⟨L, n, K⟩ (.start i event (L i event))
        ⟨L, n, ⟨i, event, (L i event).length, L i event, false⟩ :: K⟩
  | callPlain {L : Ledger} {n : Nat} {K : List Emission} {i size : Nat} {event handler : String}
      {rs : List Registration} :
      Step ⟨L, n, ⟨i, event, size, .plain handler :: rs, false⟩ :: K⟩
        (.call i event (.plain handler)) ⟨L, n, ⟨i, event, size, rs, true⟩ :: K⟩
  | callOnce {L : Ledger} {n : Nat} {K : List Emission} {i size id : Nat} {event handler : String}
      {rs : List Registration} :
      Step ⟨L, n, ⟨i, event, size, .once id handler :: rs, false⟩ :: K⟩
        (.call i event (.once id handler))
        ⟨L.write i event ((L i event).erase (.once id handler)), n,
          ⟨i, event, size, rs, true⟩ :: K⟩
  | returned {L : Ledger} {n : Nat} {K : List Emission} {i size : Nat} {event : String}
      {rs : List Registration} :
      Step ⟨L, n, ⟨i, event, size, rs, true⟩ :: K⟩ .returned
        ⟨L, n, ⟨i, event, size, rs, false⟩ :: K⟩
  | raised {L : Ledger} {n : Nat} {K : List Emission} {i size : Nat} {event : String}
      {rs : List Registration} :
      Step ⟨L, n, ⟨i, event, size, rs, true⟩ :: K⟩ .raised ⟨L, n, K⟩
  | finish {L : Ledger} {n : Nat} {K : List Emission} {i size : Nat} {event : String} :
      Step ⟨L, n, ⟨i, event, size, [], false⟩ :: K⟩ (.finish size) ⟨L, n, K⟩

/-- One deed after the other. -/
inductive Plays : Dispatcher → List Deed → Dispatcher → Prop where
  | nil {m : Dispatcher} : Plays m [] m
  | cons {m m₁ m₂ : Dispatcher} {d : Deed} {ds : List Deed} (first : Step m d m₁)
      (rest : Plays m₁ ds m₂) : Plays m (d :: ds) m₂

theorem Step.plays {m m' : Dispatcher} {d : Deed} (h : Step m d m') : Plays m [d] m' :=
  .cons h .nil

theorem Plays.append {m m₁ m₂ : Dispatcher} {ds ds' : List Deed} (h : Plays m ds m₁)
    (h' : Plays m₁ ds' m₂) : Plays m (ds ++ ds') m₂ := by
  induction h with
  | nil => exact h'
  | cons first rest ih => exact .cons first (ih h')

theorem Plays.split {m m' : Dispatcher} {ds ds' : List Deed} (h : Plays m (ds ++ ds') m') :
    ∃ m₁, Plays m ds m₁ ∧ Plays m₁ ds' m' := by
  induction ds generalizing m with
  | nil => exact ⟨m, .nil, h⟩
  | cons d ds ih =>
    cases h with
    | cons first rest =>
      obtain ⟨m₁, h, h'⟩ := ih rest
      exact ⟨m₁, .cons first h, h'⟩

end Dispatcher

namespace Deed

/-- The calls of one emit itself, where `level` emits within it are under way at first. -/
def direct : (level : Nat) → List Deed → List Registration
  | _, [] => []
  | level, start .. :: ds => direct (level + 1) ds
  | 0, call _ _ r :: ds => r :: direct 0 ds
  | 0, raised :: _ => []
  | 0, finish _ :: _ => []
  | level + 1, raised :: ds => direct level ds
  | level + 1, finish _ :: ds => direct level ds
  | level, _ :: ds => direct level ds

/-- How that emit ends, if it does: with a number, or because a handler that it called raised. -/
def ending : (level : Nat) → List Deed → Option (Option Nat)
  | _, [] => none
  | level, start .. :: ds => ending (level + 1) ds
  | 0, raised :: _ => some none
  | 0, finish n :: _ => some (some n)
  | level + 1, raised :: ds => ending level ds
  | level + 1, finish _ :: ds => ending level ds
  | level, _ :: ds => ending level ds

/-- The deed registers or removes for the store, or starts an emit of it. -/
def touches (i : Nat) : Deed → Bool
  | on j .. | once j .. | off j .. | clear j _ | start j .. => j = i
  | _ => false

/-- The deed stands in the trace of a session. -/
def inTrace : Deed → Bool
  | start .. | call .. => true
  | _ => false

end Deed

/-- What an event of a trace says about emits. -/
def Event.deed? : Event → Option Deed
  | emitted store event _ found => some (.start store event found)
  | called store event r _ => some (.call store event r)
  | _ => none

namespace Dispatcher

/-- What becomes of an emit under way, where `A` is the stack of those within it, by the time when
none is left: it has called all that was waiting, or some of it up to a handler that raised. -/
theorem Plays.emission {A K : List Emission} {i size : Nat} {event : String}
    {rs : List Registration} {calling : Bool} {L L' : Ledger} {n n' : Nat} {ds : List Deed}
    (h : Plays ⟨L, n, A ++ ⟨i, event, size, rs, calling⟩ :: K⟩ ds ⟨L', n', []⟩) :
    (Deed.ending A.length ds = some (some size) ∧ Deed.direct A.length ds = rs) ∨
      (Deed.ending A.length ds = some none ∧
        (calling = true ∨ Deed.direct A.length ds ≠ []) ∧ Deed.direct A.length ds <+: rs) := by
  induction ds generalizing A rs calling L n with
  | nil =>
    generalize hstack : A ++ ⟨i, event, size, rs, calling⟩ :: K = stack at h
    cases h
    simp at hstack
  | cons d ds ih =>
    cases h with
    | cons first rest =>
      -- The deed is done on behalf of this emit only if none is under way within it.
      cases A with
      | nil =>
        simp only [List.nil_append] at first
        cases first with
        | on | once | off | clear | count => exact ih (A := []) rest
        | start => exact ih (A := [_]) rest
        | callPlain | callOnce =>
          obtain ⟨ended, calls⟩ | ⟨ended, -, calls⟩ := ih (A := []) rest
          · exact .inl ⟨ended, congrArg _ calls⟩
          · exact .inr ⟨ended, .inr (List.cons_ne_nil _ _), List.cons_prefix_cons.2 ⟨rfl, calls⟩⟩
        | returned =>
          obtain ended | ⟨ended, some, calls⟩ := ih (A := []) rest
          · exact .inl ended
          · exact .inr ⟨ended, .inl rfl, calls⟩
        | raised => exact .inr ⟨rfl, .inl rfl, List.nil_prefix⟩
        | finish => exact .inl ⟨rfl, rfl⟩
      | cons a A =>
        simp only [List.cons_append] at first
        cases first with
        | on | once | off | clear | count => exact ih (A := a :: A) rest
        | start => exact ih (A := _ :: a :: A) rest
        | callPlain | callOnce => exact ih (A := ⟨_, _, _, _, true⟩ :: A) rest
        | returned => exact ih (A := ⟨_, _, _, _, false⟩ :: A) rest
        | raised | finish => exact ih rest

/-- An emit starts with the registrations for its event at that moment, and by the time when no emit
is under way it has called exactly these and given their number, or some of them up to one that
raised. -/
theorem Plays.emit {m : Dispatcher} {L : Ledger} {n i : Nat} {event : String}
    {found : List Registration} {before after : List Deed}
    (h : Plays m (before ++ .start i event found :: after) ⟨L, n, []⟩) :
    ∃ m₁, Plays m before m₁ ∧ found = m₁.ledger i event ∧
      ((Deed.ending 0 after = some (some found.length) ∧ Deed.direct 0 after = found) ∨
        (Deed.ending 0 after = some none ∧ Deed.direct 0 after ≠ [] ∧
          Deed.direct 0 after <+: found)) := by
  obtain ⟨m₁, hbefore, hafter⟩ := h.split
  cases hafter with
  | cons first rest =>
    cases first with
    | start =>
      refine ⟨_, hbefore, rfl, ?_⟩
      obtain ended | ⟨ended, some, calls⟩ := rest.emission (A := [])
      · exact .inl ended
      · exact .inr ⟨ended, some.resolve_left Bool.false_ne_true, calls⟩

end Dispatcher

end TreeStore
