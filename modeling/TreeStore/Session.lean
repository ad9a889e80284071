import TreeStore.Emitter
import TreeStore.Memory
import TreeStore.Pool

/-!
# Sessions: stores whose events call handlers

A session is a pool of stores, an emitter for each store, the levels of the loggers, a memory for
the results that somebody holds, and the trace of all that has happened.  A handler is a list of
actions: it may raise an error, assign the value of the result it was handed, or take any step of
the session, whose events call handlers again.

* A request first takes effect on the pool, with its counter and its line in the log, and only then
  emits: its action with a copy of its result, or `error` with the refusal.  Who took the step gets
  the result itself once the emit is over.
* An emit works through the registrations present when it started.  They are all handed the same, so
  an assigned value is seen by the later ones.  A one-time registration is removed before its call.
* A raised error ends the emit and replaces the outcome of the step; a step that a handler takes
  ends neither the handler nor the emit, whatever its outcome.

The meaning of a step is tied to the steps of the handlers by a bound on the nesting; going past the
bound is a fault of its own, which no handler can catch.
-/

namespace TreeStore

/-- What a handler sees of what it is handed. -/
inductive Payload where
  | result (r : Result)
  | error (e : StoreError)
  | values (args : List Json)
deriving Inhabited, Repr

/-- The payload as the arguments of a call. -/
def Payload.toJson : Payload → Json
  | result r => .arr [r.toJson]
  | error e => .arr [e.toJson]
  | values args => .arr args

/-- What an emit hands to its handlers, a result by its nodes. -/
inductive Handout where
  | result (h : Held)
  | error (e : StoreError)
  | values (args : List Json)
deriving Inhabited, Repr

namespace Handout

/-- What it looks like in a graph. -/
def shown (g : Graph) : Handout → Payload
  | result h => .result (h.read g)
  | error e => .error e
  | values args => .values args

/-- What is handed to others in its place: a copy of a result. -/
def copy (g : Graph) : Handout → Handout × Graph
  | result h =>
    let (h, g) := h.clone g
    (.result h, g)
  | p => (p, g)

end Handout

/-- One step of a session. -/
inductive Step where
  | command (store : Nat) (c : Command)
  | sameRegistry (a b : Nat)
  | logLevel
  | on (store : Nat) (event handler : String)
  | once (store : Nat) (event handler : String)
  | off (store : Nat) (event : String) (handler : Option String)
  | emit (store : Nat) (event : String) (args : List Json)
  | listeners (store : Nat) (event : String)
deriving Inhabited, Repr

/-- One action of a handler. -/
inductive HandlerAction where
  | raise (message : String)
  | setValue (value : Option String)
  | step (s : Step)
deriving Inhabited, Repr

/-- The actions of each handler by its name. -/
abbrev Handlers := List (String × List HandlerAction)

/-- Something that happened in a session. -/
inductive Event where
  /-- A command took effect, on its store or table and on nothing else. -/
  | performed (store : Nat) (c : Command) (outcome : Except Fault Answer)
  /-- A line went to the log. -/
  | logged (record : Log.Record)
  /-- An emit started, with the registrations it will work through. -/
  | emitted (store : Nat) (event : String) (payload : Payload) (registrations : List Registration)
  /-- A handler was called through one of its registrations. -/
  | called (store : Nat) (event : String) (registration : Registration) (payload : Payload)
  /-- A step that a handler took is over. -/
  | attempted (handler : String) (outcome : Except Fault Answer)

/-- Stores, their emitters, and what has happened. -/
structure Session where
  pool : Pool := {}
  emitters : List Emitter := []
  levels : Log.Levels := Log.Levels.initial
  /-- The identity of the next one-time registration. -/
  fresh : Nat := 0
  /-- The nodes of the results that somebody holds. -/
  memory : Graph := {}
  trace : List Event := []
deriving Inhabited

namespace Session

/-- A run of a session: it may fail, and what was done until then stays. -/
abbrev Run (α : Type) := EStateM Fault Session α

/-- Adds to the trace. -/
def note (e : Event) : Run Unit := modify fun s => { s with trace := s.trace ++ [e] }

/-- The emitter of a store. -/
def emitter (s : Session) (store : Nat) : Emitter := s.emitters.getD store {}

/-- Changes the emitter of a store. -/
def updateEmitter (store : Nat) (f : Emitter → Emitter) : Run Unit :=
  modify fun s => { s with emitters := s.emitters.set store (f (s.emitter store)) }

/-- The store sends events. -/
def emitsEvents (s : Session) (store : Nat) : Bool :=
  match s.pool.members[store]? with
  | some m => m.store.config.emitEvents.truthy
  | none => false

/-- Assigns the value of a result. -/
def assign (h : Held) (value : Option String) : Run Unit :=
  modify fun s => { s with memory := h.setValue s.memory value }

/-- Writes a line to the log of the stores if debug lines pass. -/
def debug (message : String) : Run Unit := do
  if (← get).levels.passes Log.storeLogger Log.Level.debug.value then
    note (.logged ⟨Log.storeLogger, Log.Level.debug.value, message⟩)

/-! ### Handlers -/

/-- Runs the actions of a handler; `take` is the meaning of its steps. -/
def runActions (take : Step → Run Answer) (handler : String) :
    List HandlerAction → Handout → Run Unit
  | [], _ => return ()
  | .raise message :: _, _ => throw (.raised message)
  | .setValue value :: rest, handout =>
    match handout with
    | .result h => do
      assign h value
      runActions take handler rest handout
    | _ => throw .noValue
  | .step step :: rest, handout => do
    let outcome ← attempt (take step)
    note (.attempted handler outcome)
    runActions take handler rest handout
where
  /-- The outcome of a step, be it a fault; only too deep a nesting is passed on. -/
  attempt (run : Run Answer) : Run (Except Fault Answer) := fun s =>
    match run s with
    | .ok a s' => .ok (.ok a) s'
    | .error .tooDeep s' => .error .tooDeep s'
    | .error f s' => .ok (.error f) s'

/-- Calls a handler through a registration; a one-time registration is removed first. -/
def invoke (take : Step → Run Answer) (handlers : Handlers) (store : Nat) (event : String)
    (handout : Handout) (r : Registration) : Run Unit := do
  match r with
  | .once .. => updateEmitter store (·.off event r)
  | .plain _ => pure ()
  note (.called store event r (handout.shown (← get).memory))
  runActions take r.handler ((handlers.lookup r.handler).getD []) handout

/-- Calls handlers one after the other. -/
def dispatch (call : Registration → Run Unit) : List Registration → Run Unit
  | [] => return ()
  | r :: rs => do
    call r
    dispatch call rs

/-- Emits an event of a store; gives the number of registrations worked through. -/
def emit (take : Step → Run Answer) (handlers : Handlers) (store : Nat) (event : String)
    (handout : Handout) : Run Nat := do
  let registrations := ((← get).emitter store).listeners event
  note (.emitted store event (handout.shown (← get).memory) registrations)
  dispatch (invoke take handlers store event handout) registrations
  return registrations.length

/-! ### Steps -/

/-- What the outcome of a request writes to the log. -/
def logLine (r : Request) : Except Fault Answer → Option String
  | .ok (.result result) => Store.logLine r (.ok result)
  | .ok _ => none
  | .error f => Store.logLine r (.error f)

/-- Runs a command on the pool, without its events; a request also has its line in the log. -/
def perform (store : Nat) (c : Command) : Run (Except Fault Kept) := do
  let (outcome, pool) := (← get).pool.run store c
  let (own, memory) := keep (← get).memory outcome
  modify fun s => { s with pool := pool, memory := memory }
  note (.performed store c outcome)
  match c with
  | .request r =>
    match logLine r outcome with
    | some line => debug line
    | none => pure ()
  | _ => pure ()
  return own

/-- The event that a request emits, with what its taker has that the event tells of. -/
def announcement (r : Request) : Except Fault Kept → Option (String × Handout)
  | .ok (.result h) => if r.action = .get then none else some (r.action.name, .result h)
  | .error (.refused e) => some ("error", .error e)
  | _ => none

/-- Makes the copy that is handed out. -/
def lend (news : Handout) : Run Handout :=
  modifyGet fun s => ((news.copy s.memory).1, { s with memory := (news.copy s.memory).2 })

/-- Ends a step with what its taker has, as it looks now. -/
def tell : Except Fault Kept → Run Answer
  | .ok own => return own.read (← get).memory
  | .error f => throw f

/-- One step, where `send` emits an event of a store. -/
def stepWith (send : Nat → String → Handout → Run Nat) : Step → Run Answer
  | .command store c => do
    let own ← perform store c
    match c with
    | .request r =>
      match announcement r own with
      | some (event, news) =>
        if (← get).emitsEvents store then
          let _ ← send store event (← lend news)
      | none => pure ()
    | _ => pure ()
    tell own
  | .sameRegistry a b => return .flag ((← get).pool.sameRegistry a b)
  | .logLevel => return .level ((← get).levels.of Log.storeLogger)
  | .on store event handler => do
    updateEmitter store (·.on event (.plain handler))
    return .flag true
  | .once store event handler => do
    let id := (← get).fresh
    modify fun s => { s with fresh := id + 1 }
    updateEmitter store (·.on event (.once id handler))
    return .flag true
  | .off store event handler => do
    updateEmitter store fun e =>
      match handler with
      | some h => e.off event (.plain h)
      | none => e.clear event
    return .flag true
  | .emit store event args => return .count (← send store event (.values args))
  | .listeners store event => return .count (((← get).emitter store).count event)

/-- One step whose handlers nest fewer than `depth` levels deep. -/
def step (handlers : Handlers) : (depth : Nat) → Step → Run Answer
  | 0, _ => throw .tooDeep
  | depth + 1, s => stepWith (emit (step handlers depth) handlers) s

/-- The bound on the nesting of handlers. -/
def maxDepth : Nat := 1000

/-! ### Building a session -/

/-- A session without stores, with a shared table of messages. -/
def withShared (shared : List (Int × String)) : Session := { pool := Pool.withShared shared }

/-- The session with one more store. -/
def addStore (s : Session) (config : Config) (choice : RegistryChoice) : Session :=
  { s with
    pool := s.pool.add config choice
    emitters := s.emitters ++ [{}]
    levels := Pool.levelsFor s.levels config }

/-- Takes a step on a session with an empty trace: the outcome and the session with its trace. -/
def take (handlers : Handlers) (s : Session) (t : Step) : Except Fault Answer × Session :=
  match step handlers maxDepth t { s with trace := [] } with
  | .ok a s' => (.ok a, s')
  | .error f s' => (.error f, s')

end Session

end TreeStore
