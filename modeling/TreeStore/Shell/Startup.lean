import TreeStore.Json.Reader
import TreeStore.Pool
import TreeStore.Text.Lines

/-!
# Starting with a configuration and a log level

The log level is looked at first, then the text of the configuration is read as JSON and turned into
a configuration.  The level of the package is set even if the configuration is refused later on.
-/

namespace TreeStore.Shell

/-- Why a start is refused. -/
inductive StartFlaw where
  | unknownLevel (name : String)
  /-- The configuration is not JSON. -/
  | badJson (e : Json.ReadError)
  | badConfig (f : Config.Flaw)
deriving Inhabited, Repr

namespace StartFlaw

def message : StartFlaw → String
  | unknownLevel name => "Unknown log level: " ++ name
  | badJson e => e.message
  | badConfig f => f.message

/-- The option at fault. -/
def option : StartFlaw → String
  | unknownLevel _ => "--log-level"
  | badJson _ | badConfig _ => "--config"

end StartFlaw

/-- The configuration in a text; without a text the default one. -/
def readConfig : Option String → Except StartFlaw Config
  | none => .ok {}
  | some text =>
    match Json.read (Text.unifyNewlines text) with
    | .error e => .error (.badJson e)
    | .ok v =>
      match Config.ofJson v with
      | .error f => .error (.badConfig f)
      | .ok c => .ok c

/-- The level that an option names; an empty option is none. -/
def readLevel : Option String → Except StartFlaw (Option Log.Level)
  | none | some "" => .ok none
  | some name =>
    match Log.Level.ofText? name with
    | some l => .ok (some l)
    | none => .error (.unknownLevel name)

/-- The levels of the loggers with that of the package set. -/
def packageLevels (levels : Log.Levels) : Option Log.Level → Log.Levels
  | some l => levels.set Log.packageLogger l.value
  | none => levels

/-- The configuration to start with and the levels of the loggers once the store is there. -/
def start (config logLevel : Option String) (levels : Log.Levels := Log.Levels.initial) :
    Except StartFlaw (Config × Log.Levels) :=
  match readLevel logLevel with
  | .error e => .error e
  | .ok level =>
    match readConfig config with
    | .error e => .error e
    | .ok c => .ok (c, Pool.levelsFor (packageLevels levels level) c)

end TreeStore.Shell
