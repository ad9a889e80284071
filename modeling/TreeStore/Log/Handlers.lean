import TreeStore.Log.Levels
import TreeStore.Log.Site
import TreeStore.Text.Quoted

/-!
# Log handlers

The package logger has handlers of two origins: those that the store logger attached, which it keeps
in a list of its own, and those of others.  `disableAll` detaches and closes the former and leaves
the latter alone.  A record that passes its logger's level goes to every attached handler whose
level it reaches; where no handler is found at all, warnings and worse are shown without any
decoration.
-/

namespace TreeStore.Log

/-- Where a handler writes. -/
inductive Sink where
  | console
  | file
  /-- A handler of somebody else, whose output is not followed here. -/
  | foreign
deriving DecidableEq, Inhabited, Repr

/-- Whether the lines of a handler name the place that logged them. -/
inductive Format where
  | plain
  | withSite
deriving DecidableEq, Inhabited, Repr

/-- A handler. -/
structure Handler where
  sink : Sink
  level : Int
  format : Format
  /-- How many filters it has that put the site into a record. -/
  siteFilters : Nat
  isOpen : Bool := true
deriving DecidableEq, Inhabited, Repr

/-- The state of logging in the whole process. -/
structure State where
  levels : Levels := Levels.initial
  /-- Every handler ever made; a handler is known by its number. -/
  handlers : List Handler := []
  /-- The handlers of the package logger, in the order in which they are called. -/
  attached : List Nat := []
  /-- The handlers that the store logger lists as its own. -/
  owned : List Nat := []
  /-- The root logger has a handler. -/
  rootHandler : Bool := false
  console : String := ""
  file : Option String := none
deriving DecidableEq, Inhabited, Repr

namespace State

def handler? (s : State) (i : Nat) : Option Handler := s.handlers[i]?

/-- Gives the package logger a level. -/
def setLevel (s : State) (level : Level) : State :=
  { s with levels := s.levels.set packageLogger level.value }

/-- Lets the store logger attach a new handler; a file exists from then on. -/
def attach (s : State) (sink : Sink) (level : Level) : State :=
  let h : Handler :=
    { sink := sink
      level := level.value
      format := if level = .debug then .withSite else .plain
      siteFilters := 1 }
  let i := s.handlers.length
  { s with
    handlers := s.handlers ++ [h]
    attached := s.attached ++ [i]
    owned := s.owned ++ [i]
    file := if sink = .file then some (s.file.getD "") else s.file }

/-- Somebody else attaches a handler. -/
def attachForeign (s : State) (level : Int) : State :=
  let h : Handler := { sink := .foreign, level := level, format := .plain, siteFilters := 0 }
  { s with handlers := s.handlers ++ [h], attached := s.attached ++ [s.handlers.length] }

/-- Detaches and closes one handler. -/
def detach (s : State) (i : Nat) : State :=
  { s with
    attached := s.attached.filter (· ≠ i)
    handlers := s.handlers.modify i fun h => { h with isOpen := false } }

/-- Detaches and closes all handlers of the store logger. -/
def disableAll (s : State) : State :=
  { s.owned.foldl detach s with owned := [] }

/-- Sets the level and starts afresh with a console handler, a file handler, or both. -/
def configure (s : State) (level : Level) (console file : Bool) : State :=
  let s := s.disableAll.setLevel level
  let s := if console then s.attach .console level else s
  if file then s.attach .file level else s

/-- Gives a level to the loggers of the package, the stores and the command line. -/
def setup (s : State) (level : Int) : State :=
  let levels := [packageLogger, storeLogger, commandLogger].foldl (·.set · level) s.levels
  { s with levels := levels }

/-- The full name of a logger of the package. -/
def loggerName (name : Option String) : String :=
  match name with
  | none | some "" => packageLogger
  | some n => packageLogger ++ "." ++ n

/-- Asks for a logger, which is there from then on. -/
def ask (s : State) (logger : String) : State := { s with levels := s.levels.ask logger }

/-- Asks for a logger of the package: a package without a level becomes a warning, unless the root
has a handler. -/
def getLogger (s : State) (logger : String) : State :=
  let s := s.ask logger
  if !s.rootHandler && s.levels.of packageLogger == 0 then s.setLevel .warning else s

/-- The line of a handler for a record. -/
def line (h : Handler) (r : Record) (site : String) : String :=
  let place := match h.format with
    | .plain => ""
    | .withSite => " [" ++ site ++ "]"
  label r.level ++ " " ++ r.logger ++ place ++ ": " ++ r.message

/-- Writes a line to a sink. -/
def emit (s : State) (sink : Sink) (text : String) : State :=
  match sink with
  | .console => { s with console := s.console ++ text ++ "\n" }
  | .file => { s with file := some (s.file.getD "" ++ text ++ "\n") }
  | .foreign => s

/-- Hands a record to one handler. -/
def deliver (s : State) (r : Record) (site : String) (i : Nat) : State :=
  match s.handler? i with
  | some h => if h.level ≤ r.level then s.emit h.sink (line h r site) else s
  | none => s

/-- The handlers of the package that a record of the logger reaches. -/
def reached (s : State) (logger : String) : List Nat :=
  if packageLogger ∈ ancestry s.levels.present logger then s.attached else []

/-- Logs a record. -/
def log (s : State) (r : Record) (site : String) : State :=
  if s.levels.passes r.logger r.level then
    match s.reached r.logger with
    | [] =>
      if !s.rootHandler && Level.warning.value ≤ r.level then s.emit .console r.message else s
    | reached => reached.foldl (fun s i => s.deliver r site i) s
  else s

end State

/-! ## Steps by the names of levels -/

/-- A step on the state of logging. -/
inductive Step where
  | getLogger (name : Option String)
  | setLevel (level : String)
  | console (level : String)
  | file (level : String)
  | disableAll
  | configure (level : String) (console file : Bool)
  | setup (level : Int)
  | log (record : Record) (site : Site)
deriving DecidableEq, Inhabited, Repr

/-- A logger with the level it was given and the one that counts. -/
structure LoggerState where
  name : String
  level : Int
  effective : Int
deriving DecidableEq, Inhabited, Repr

/-- What a step shows. -/
inductive Answer where
  | done
  | chained
  | logger (l : LoggerState)
  | loggers (ls : List LoggerState)
  /-- There is no level of this name. -/
  | noLevel (name : String)
deriving DecidableEq, Inhabited, Repr

namespace State

def loggerState (s : State) (name : String) : LoggerState :=
  ⟨name, s.levels.of name, s.levels.effective name⟩

/-- Goes on with the level of a name. -/
def withLevel (s : State) (name : String) (f : Level → State) : Answer × State :=
  match Level.ofName? name with
  | some l => (.chained, f l)
  | none => (.noLevel name, s)

/-- One step: what it shows, and the state after it. -/
def step (s : State) : Step → Answer × State
  | .getLogger name =>
    let logger := loggerName name
    let s := s.getLogger logger
    (.logger (s.loggerState logger), s)
  | .setLevel level => s.withLevel level s.setLevel
  | .console level => s.withLevel level (s.attach .console)
  | .file level => s.withLevel level (s.attach .file)
  | .disableAll => (.chained, s.disableAll)
  | .configure level console file => s.withLevel level fun l => s.configure l console file
  | .setup level =>
    let s := s.setup level
    (.loggers ([packageLogger, storeLogger, commandLogger].map s.loggerState), s)
  | .log record site => (.done, (s.ask record.logger).log record site.text)

/-- The handlers that the store logger lists, as they are now. -/
def ownedHandlers (s : State) : List Handler := s.owned.filterMap s.handler?

end State

end TreeStore.Log
