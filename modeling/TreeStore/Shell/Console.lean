import TreeStore.Pool
import TreeStore.Shell.Render
import TreeStore.Text.Lines

/-!
# Scripts and conversations

A console is a store with what has been shown and logged so far.  `runLine` runs one line: a failure
is shown and leaves the store to the next line.  `runLines` runs the lines of a script and counts
the failures, `converse` reads lines behind a prompt until one of them asks to leave.
-/

namespace TreeStore.Shell

/-- Something that a console shows. -/
inductive Shown where
  | banner
  | prompt
  | help
  /-- The output or the fault of one line. -/
  | block (text : String)
deriving DecidableEq, Inhabited, Repr

/-- The commands in a few words each. -/
def helpText : String := "\n".intercalate
  ["Commands:",
   "  get KEY [-r] [-s]      read a node (-r subtree, -s sorted)",
   "  ls [KEY]               list a directory",
   "  tree [KEY]             show a subtree",
   "  set KEY VALUE          create or replace a leaf",
   "  mkdir KEY              create a directory",
   "  create KEY VALUE       create a leaf",
   "  update KEY VALUE       change a leaf value",
   "  rm KEY [-r] [-d]       delete (-r recursive, -d expect directory)",
   "  stats                  operation counters"]

/-- The characters shown; only the prompt leaves its line open. -/
def Shown.text : Shown → String
  | banner => "nodestore shell - 'help' for commands, 'exit' to quit\n"
  | prompt => "nodestore> "
  | help => helpText ++ "\n"
  | block text => text ++ "\n"

/-- A store, and what has been shown and logged. -/
structure Console where
  store : Store
  messages : Messages
  levels : Log.Levels
  screen : Screen
  style : Style
  shown : List Shown := []
  log : List Log.Record := []
deriving Inhabited

namespace Console

/-- A console with a fresh store. -/
def start (screen : Screen) (config : Config) (levels : Log.Levels) (style : Style) : Console :=
  { store := { config := config }
    messages := config.messages
    levels := levels
    screen := screen
    style := style }

def display (c : Console) (s : Shown) : Console := { c with shown := c.shown ++ [s] }

/-- Logs a debug line if it passes its logger. -/
def debug (c : Console) (logger message : String) : Console :=
  if c.levels.passes logger Log.Level.debug.value then
    { c with log := c.log ++ [⟨logger, Log.Level.debug.value, message⟩] }
  else c

/-- All that has been shown, as one text. -/
def text (c : Console) : String := String.join (c.shown.map Shown.text)

/-- What the store logs about a line with the given outcome. -/
def storeLine (line : String) (outcome : LineOutcome) : Option String :=
  match parseLine line with
  | .ok (some (_, .request r)) =>
    match outcome with
    | .ok (some (_, .result result)) => Store.logLine r (.ok result)
    | .error (.fault f) => Store.logLine r (.error f)
    | _ => none
  | _ => none

/-- Logs what the store logs about a line. -/
def note (c : Console) (line : String) (outcome : LineOutcome) : Console :=
  match storeLine line outcome with
  | some message => c.debug Log.storeLogger message
  | none => c

/-- Shows what a line gave back or why it failed; says whether it succeeded. -/
def report (c : Console) (line : String) : LineOutcome → Bool × Console
  | .ok none => (true, c)
  | .ok (some (command, output)) =>
    (true, c.display (.block (render c.screen c.style command output)))
  | .error f =>
    let c :=
      match f with
      | .fault (.refused _) => c.debug Log.commandLogger ("command failed: " ++ line)
      | _ => c
    (false, c.display (.block (renderFault c.screen c.style f)))

/-- Runs a line, shows what it gave back or why it failed; says whether it succeeded. -/
def runLine (c : Console) (line : String) : Bool × Console :=
  let (outcome, store) := execute c.messages line c.store
  let c := { c with store := store }
  (c.note line outcome).report line outcome

/-! ### Scripts -/

/-- Runs lines one after the other; gives the number of those that failed. -/
def runLines : Console → List String → Nat × Console
  | c, [] => (0, c)
  | c, line :: lines =>
    let (ok, c) := c.runLine line
    let (failures, c) := c.runLines lines
    (if ok then failures else failures + 1, c)

/-- Runs the lines of a script; the exit status is 1 if a line failed. -/
def runScript (c : Console) (script : String) : Nat × Console :=
  let (failures, c) := c.runLines (Text.splitLines (Text.unifyNewlines script))
  (if failures = 0 then 0 else 1, c)

/-! ### Conversations -/

/-- The line asks to leave. -/
def isLeave (line : String) : Bool := Text.strip line == "exit" || Text.strip line == "quit"

/-- The line asks for help. -/
def isHelp (line : String) : Bool := Text.strip line == "help"

/-- Answers one line. -/
def reply (c : Console) (line : String) : Console :=
  if isHelp line then c.display .help else (c.runLine line).2

/-- Reads lines behind a prompt until one asks to leave or there are no more. -/
def converse : Console → List String → Console
  | c, [] => c.display .prompt
  | c, line :: lines =>
    let c := c.display .prompt
    if isLeave line then c else (c.reply line).converse lines

/-- A whole conversation with its greeting. -/
def runShell (c : Console) (input : String) : Console :=
  (c.display .banner).converse (Text.splitFeeds (Text.unifyNewlines input))

/-! ### First equations -/

@[simp] theorem runLines_nil (c : Console) : c.runLines [] = (0, c) := rfl

theorem runLines_cons (c : Console) (line : String) (lines : List String) :
    c.runLines (line :: lines) =
      (let rest := (c.runLine line).2.runLines lines
       (if (c.runLine line).1 then rest.1 else rest.1 + 1, rest.2)) := rfl

theorem converse_cons (c : Console) (line : String) (lines : List String) :
    c.converse (line :: lines) =
      if isLeave line then c.display .prompt
      else ((c.display .prompt).reply line).converse lines := rfl

end Console

end TreeStore.Shell
