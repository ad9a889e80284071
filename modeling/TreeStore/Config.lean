import TreeStore.Log.Level
import TreeStore.Messages
import TreeStore.Text.Integer

/-!
# Configuration

The settings a store is built from.  They are read in two stages: `Settings.ofJson` takes the known
fields out of a JSON object and turns the keys of its message table into codes, `Config.ofSettings`
merges the messages with the default ones and checks the log level.  Of several faults the one that
is checked first counts.
-/

namespace TreeStore

/-- The settings of a store.  Whether listings are sorted and events are sent is decided by the
truth of the values given. -/
structure Config where
  messages : Messages := Messages.default
  sortedListing : Json := .bool false
  emitEvents : Json := .bool true
  logLevel : Option Log.Level := none
deriving Inhabited, Repr

namespace Config

/-- What is wrong with a configuration. -/
inductive Flaw where
  | notObject (kind : String)
  | unknownKeys (names : List String)
  | messagesNotObject
  | badCode (name : String)
  | badLevel (text : String)
  /-- An integer has too many digits to be written into the message. -/
  | longInteger
deriving DecidableEq, Inhabited, Repr

def Flaw.message : Flaw → String
  | notObject kind => "Config must be a mapping, got " ++ kind
  | unknownKeys names => "Unknown config keys: " ++ ", ".intercalate names
  | messagesNotObject => "error_messages must be a mapping of code to message"
  | badCode name => "Invalid error code: " ++ Text.quoted name
  | badLevel text => "Invalid log_level: " ++ text
  | longInteger =>
    "Exceeds the limit (" ++ toString Text.maxDigits ++
      " digits) for integer string conversion; " ++
      "use sys.set_int_max_str_digits() to increase the limit"

/-- The fields of a configuration, each of them if it was given. -/
structure Settings where
  messages : Option (List (Int × String)) := none
  sortedListing : Option Json := none
  emitEvents : Option Json := none
  logLevel : Option Json := none
deriving Inhabited, Repr

/-- The names of the fields. -/
def fieldNames : List String := ["error_messages", "sorted_listing", "emit_events", "log_level"]

/-- The fields of a table of messages, in their order: each name is a code in any spelling, each
value the message in words.  A value without a text is laid to its name. -/
def readMessages : List (String × Json) → Except Flaw (List (Int × String))
  | [] => .ok []
  | (name, v) :: rest =>
    match Text.readInteger? name, v.asMessage with
    | some code, some text =>
      match readMessages rest with
      | .error e => .error e
      | .ok list => .ok ((code, text) :: list)
    | _, _ => .error (.badCode name)

/-- The table of messages among the fields, if there is one. -/
def messagesField (fields : List (String × Json)) : Except Flaw (Option (List (Int × String))) :=
  match fields.lookup "error_messages" with
  | none => .ok none
  | some (.obj table) =>
    match readMessages table with
    | .error e => .error e
    | .ok list => .ok (some list)
  | some _ => .error .messagesNotObject

/-- The names of the fields that a configuration does not have, in the order of their code
points. -/
def unknownNames (fields : List (String × Json)) : List String :=
  ((fields.map (·.1)).filter (· ∉ fieldNames)).mergeSort (fun a b => decide (a ≤ b))

/-- The settings in a JSON value. -/
def Settings.ofJson (v : Json) : Except Flaw Settings :=
  match v with
  | .obj fields =>
    match unknownNames fields with
    | [] =>
      match messagesField fields with
      | .error e => .error e
      | .ok messages =>
        .ok
          { messages := messages
            sortedListing := fields.lookup "sorted_listing"
            emitEvents := fields.lookup "emit_events"
            logLevel := fields.lookup "log_level" }
    | names => .error (.unknownKeys names)
  | v => .error (.notObject v.kindName)

/-- The refusal of a value for the log level. -/
def refuseLevel (v : Json) : Flaw :=
  match v.display with
  | some text => .badLevel text
  | none => .longInteger

/-- The log level that a value stands for: `null` for none, a text that is the name of a level. -/
def readLevel : Json → Except Flaw (Option Log.Level)
  | .null => .ok none
  | .str s =>
    match Log.Level.ofText? s with
    | some l => .ok (some l)
    | none => .error (refuseLevel (.str s))
  | v => .error (refuseLevel v)

/-- The configuration with the given messages and the other settings. -/
def build (messages : Messages) (s : Settings) : Except Flaw Config :=
  match readLevel (s.logLevel.getD .null) with
  | .error e => .error e
  | .ok level =>
    .ok
      { messages := messages
        sortedListing := s.sortedListing.getD (.bool false)
        emitEvents := s.emitEvents.getD (.bool true)
        logLevel := level }

/-- The configuration of some settings whose messages are merged with the default ones. -/
def ofSettings (s : Settings) : Except Flaw Config :=
  build (Messages.default.insertAll (s.messages.getD [])) s

/-- The configuration of some settings whose messages, if given, are the only ones. -/
def exactly (s : Settings) : Except Flaw Config :=
  build (s.messages.elim Messages.default Messages.ofList) s

/-- The configuration in a JSON value. -/
def ofJson (v : Json) : Except Flaw Config :=
  match Settings.ofJson v with
  | .error e => .error e
  | .ok s => ofSettings s

/-- The configuration with more messages, which take the place of those with the same codes. -/
def withMessages (c : Config) (overlay : List (Int × String)) : Config :=
  { c with messages := c.messages.insertAll overlay }

/-- All fields of a configuration. -/
def toSettings (c : Config) : Settings :=
  { messages := some c.messages.entries
    sortedListing := some c.sortedListing
    emitEvents := some c.emitEvents
    logLevel := some (.ofOption (c.logLevel.map (·.name))) }

/-- The configuration as a JSON object, with the codes in decimal. -/
def toJson (c : Config) : Json :=
  .obj
    [("error_messages", .obj (c.messages.entries.map fun e => (toString e.1, .str e.2))),
     ("sorted_listing", c.sortedListing),
     ("emit_events", c.emitEvents),
     ("log_level", .ofOption (c.logLevel.map (·.name)))]

/-- Its own settings give the configuration back. -/
def roundTrips (c : Config) : Bool :=
  match ofSettings c.toSettings with
  | .ok d => d.messages = c.messages && d.sortedListing == c.sortedListing &&
      d.emitEvents == c.emitEvents && d.logLevel = c.logLevel
  | .error _ => false

end Config

end TreeStore
