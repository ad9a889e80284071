import TreeStore.Session

/-!
# Handlers as programs

The handlers of a session are lists of actions, which take no notice of what comes of their steps.
Here a handler is any `Program`: what it does next may depend on the outcome of each step that it
took, it may let the fault of a step through or raise one of its own, and what a call of it does may
depend on all that has happened before, so that it may have a state of its own (`Behaviour`).  Who
uses a session from outside is a program as well.

The meaning of steps is the one of sessions, with programs in the place of actions; on handlers that
are lists of actions the two are the same: `Behaviour.step_ofHandlers`.
-/

namespace TreeStore

open Session

/-- What a handler does when it is called. -/
inductive Program where
  | finish
  /-- It ends with a fault, its own or that of a step that it took. -/
  | raise (f : Fault)
  | log (record : Log.Record) (next : Program)
  | setValue (value : Option String) (next : Program)
  /-- It takes a step, and what it does next depends on the outcome. -/
  | step (t : Step) (next : Except Fault Answer → Program)

/-- What each handler does on a call, given all that has happened and what it sees of what it is
handed. -/
abbrev Behaviour := String → List Event → Payload → Program

namespace Program

/-- Runs a program; `take` is the meaning of its steps. -/
def run (take : Step → Run Answer) (name : String) : Program → Handout → Run Unit
  | finish, _ => return ()
  | raise f, _ => throw f
  | log record next, handout => do
    if (← get).levels.passes record.logger record.level then
      note (.logged record)
    run take name next handout
  | setValue value next, handout =>
    match handout with
    | .result h => do
      assign h value
      run take name next handout
    | _ => throw .noValue
  | step t next, handout => do
    let outcome ← runActions.attempt (take t)
    note (.attempted name outcome)
    run take name (next outcome) handout

/-- A list of actions as a program. -/
def ofActions : List HandlerAction → Program
  | [] => finish
  | .raise message :: _ => raise (.raised message)
  | .setValue value :: rest => setValue value (ofActions rest)
  | .step t :: rest => step t fun _ => ofActions rest

theorem run_ofActions (take : Step → Run Answer) (name : String) (actions : List HandlerAction)
    (handout : Handout) :
    (ofActions actions).run take name handout = runActions take name actions handout := by
  induction actions with
  | nil => rfl
  | cons action rest ih =>
    cases action with
    | raise message => rfl
    | setValue value =>
      cases handout with
      | result h => simp only [ofActions, run, runActions, ih]
      | error e => rfl
      | values args => rfl
    | step t => simp only [ofActions, run, runActions, ih]

end Program

namespace Behaviour

variable (b : Behaviour) (take : Step → Run Answer)

/-- Calls a handler through a registration; a one-time registration is removed first. -/
def invoke (store : Nat) (event : String) (handout : Handout) (r : Registration) : Run Unit := do
  match r with
  | .once .. => updateEmitter store (·.off event r)
  | .plain _ => pure ()
  let payload := handout.shown (← get).memory
  note (.called store event r payload)
  (b r.handler (← get).trace payload).run take r.handler handout

/-- Emits an event of a store; gives the number of registrations worked through. -/
def emit (store : Nat) (event : String) (handout : Handout) : Run Nat := do
  let registrations := ((← get).emitter store).listeners event
  note (.emitted store event (handout.shown (← get).memory) registrations)
  dispatch (b.invoke take store event handout) registrations
  return registrations.length

/-- One step whose handlers nest fewer than `depth` levels deep. -/
def step : (depth : Nat) → Step → Run Answer
  | 0, _ => throw .tooDeep
  | depth + 1, t => stepWith (b.emit (step depth)) t

/-- The handlers that are lists of actions. -/
def ofHandlers (handlers : Handlers) : Behaviour := fun name _ _ =>
  .ofActions ((handlers.lookup name).getD [])

theorem invoke_ofHandlers (handlers : Handlers) :
    (ofHandlers handlers).invoke take = Session.invoke take handlers := by
  funext store event handout r
  cases r <;> simp only [invoke, Session.invoke, ofHandlers, Program.run_ofActions] <;> rfl

theorem emit_ofHandlers (handlers : Handlers) :
    (ofHandlers handlers).emit take = Session.emit take handlers := by
  funext store event handout
  simp only [emit, Session.emit, invoke_ofHandlers]

/-- On handlers that are lists of actions, steps have the meaning that they have in sessions. -/
theorem step_ofHandlers (handlers : Handlers) (depth : Nat) :
    (ofHandlers handlers).step depth = Session.step handlers depth := by
  induction depth with
  | zero => rfl
  | succ depth ih =>
    funext t
    simp only [step, Session.step, ih, emit_ofHandlers]

end Behaviour

end TreeStore
