import TreeStore.Shell.Arguments
import TreeStore.Shell.Console
import TreeStore.Shell.Startup
import TreeStore.Shell.Terminal

/-!
# The program

A run of the program depends on its arguments, the files they name and the standard input, and comes
to an exit status, a text and a log.  Arguments that make no sense, a file that is not there and a
configuration that is refused end it with status 2 before anything is shown.  A directory in place
of a configuration is only found out when it is read, after the log level has been looked at, and
ends it with status 1.
-/

namespace TreeStore.Shell

/-- What is found at a path. -/
inductive Entry where
  /-- A file with this text. -/
  | file (text : String)
  | directory
deriving DecidableEq, Inhabited, Repr

/-- Why the program does not start. -/
inductive Refusal where
  | usage (f : UsageFlaw)
  | noFile (path : String)
  /-- The script is a directory. -/
  | noScript (path : String)
  | start (f : StartFlaw)
  /-- The configuration is a directory. -/
  | unreadable (path : String)
deriving Inhabited, Repr

def Refusal.message : Refusal → String
  | usage f => f.message
  | noFile path => "File '" ++ path ++ "' does not exist."
  | noScript path => "File '" ++ path ++ "' is a directory."
  | start f => "Invalid value for " ++ f.option ++ ": " ++ f.message
  | unreadable path => "Is a directory: '" ++ path ++ "'"

/-- The exit status of a program that does not start. -/
def Refusal.status : Refusal → Nat
  | unreadable _ => 1
  | _ => 2

/-- What is to be done on a console that is ready. -/
inductive Job where
  /-- Run a script with this text. -/
  | script (text : String)
  | conversation
deriving DecidableEq, Inhabited, Repr

/-- The entry at a path where one must be. -/
def needEntry (files : String → Option Entry) (path : String) : Except Refusal Entry :=
  match files path with
  | some entry => .ok entry
  | none => .error (.noFile path)

/-- The job of a task. -/
def Task.job (files : String → Option Entry) : Task → Except Refusal Job
  | .run script => do
    match ← needEntry files script with
    | .file text => return .script text
    | .directory => throw (.noScript script)
  | .shell => return .conversation

/-- The configuration and the levels to start with, from options whose file has been found. -/
def Options.start (options : Options) : Option (String × Entry) →
    Except Refusal (Config × Log.Levels)
  | none => (Shell.start none options.logLevel).mapError .start
  | some (_, .file text) => (Shell.start (some text) options.logLevel).mapError .start
  | some (path, .directory) => do
    let _ ← (readLevel options.logLevel).mapError Refusal.start
    throw (.unreadable path)

/-- The job that the arguments ask for, and a console for it. -/
def prepare (args : List String) (files : String → Option Entry) :
    Except Refusal (Job × Console) := do
  let (task, options) ← (readArguments args).mapError Refusal.usage
  let job ← task.job files
  let entry ← options.config.mapM fun path => (path, ·) <$> needEntry files path
  let (config, levels) ← options.start entry
  return (job, Console.start .terminal config levels options.style)

/-- What a run of the program comes to. -/
structure Outcome where
  status : Nat
  text : String
  log : List Log.Record
deriving DecidableEq, Inhabited, Repr

/-- Does a job: its exit status and the console after it.  A conversation always ends well. -/
def Job.run (input : String) (c : Console) : Job → Nat × Console
  | .script text => c.runScript text
  | .conversation => (0, c.runShell input)

/-- A whole run of the program. -/
def program (args : List String) (files : String → Option Entry) (input : String) : Outcome :=
  match prepare args files with
  | .error refusal => ⟨refusal.status, "", []⟩
  | .ok (job, c) =>
    let (status, c) := job.run input c
    ⟨status, c.text, c.log⟩

end TreeStore.Shell
