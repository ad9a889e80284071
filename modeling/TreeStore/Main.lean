import TreeStore.Shell.Program

/-!
# The command line

The outer layer: it reads the files that the arguments name and the lines of the standard input, and
writes what a console shows and logs as soon as it is there.
-/

namespace TreeStore.Shell

/-- The files that the arguments name. -/
def namedFiles (args : List String) : List String :=
  match readArguments args with
  | .ok (.run script, options) => script :: options.config.toList
  | .ok (.shell, options) => options.config.toList
  | .error _ => []

/-- What is found at those paths, without the ones where nothing can be read. -/
def readEntries : List String → IO (List (String × Entry))
  | [] => return []
  | path :: paths => do
    let rest ← readEntries paths
    try
      return (path, .file (← IO.FS.readFile path)) :: rest
    catch
      | .inappropriateType .. => return (path, .directory) :: rest
      | _ => return rest

/-- The arguments ask for log lines on the standard error. -/
def wantsLog (args : List String) : Bool :=
  match readArguments args with
  | .ok (_, options) =>
    match readLevel options.logLevel with
    | .ok (some level) => level == .debug
    | _ => false
  | .error _ => false

/-- Writes what a console has shown and logged since it was in an earlier state. -/
def writeNew (verbose : Bool) (earlier now : Console) : IO Unit := do
  let out ← IO.getStdout
  for s in now.shown.drop earlier.shown.length do
    out.putStr s.text
  out.flush
  if verbose then
    for r in now.log.drop earlier.log.length do
      IO.eprintln (Log.label r.level ++ " " ++ r.logger ++ ": " ++ r.message)

/-- Answers pending lines, and reads more of them when there are none, until one asks to leave. -/
partial def answer (verbose : Bool) (c : Console) : (pending : List String) → IO Unit
  | line :: pending => do
    if Console.isLeave line then return
    let replied := c.reply line
    let asked := if pending.isEmpty then replied else replied.display .prompt
    writeNew verbose c asked
    answer verbose asked pending
  | [] => do
    let asked := c.display .prompt
    writeNew verbose c asked
    let text ← (← IO.getStdin).getLine
    match Text.splitFeeds (Text.unifyNewlines text) with
    | [] => return
    | lines => answer verbose asked lines

end TreeStore.Shell

open TreeStore.Shell

def main (args : List String) : IO UInt32 := do
  let entries ← readEntries (namedFiles args)
  match prepare args fun path => entries.lookup path with
  | .error refusal =>
    IO.eprintln refusal.message
    return refusal.status.toUInt32
  | .ok (.script text, c) =>
    let (status, done) := c.runScript text
    writeNew (wantsLog args) c done
    return status.toUInt32
  | .ok (.conversation, c) =>
    let greeted := c.display .banner
    writeNew (wantsLog args) c greeted
    answer (wantsLog args) greeted []
    return 0
