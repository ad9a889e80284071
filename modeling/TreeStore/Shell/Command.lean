import TreeStore.Shell.Words
import TreeStore.Store

/-!
# Commands

A line of the shell is a command and its arguments: one of the requests to the store, or a look at
the counters.  `execute` runs a line on a store; a line that is no command leaves the store as it
is.
-/

namespace TreeStore.Shell

/-- What a line asks for. -/
inductive Command where
  | request (r : Request)
  | stats
deriving DecidableEq, Inhabited, Repr

/-- Why a line is no command. -/
inductive Flaw where
  | words (w : WordFlaw)
  | unknownCommand (name : String)
  | unknownFlag (flag : String)
  /-- The command takes other arguments. -/
  | usage (command : String) (arguments : List String)
deriving DecidableEq, Inhabited, Repr

def Flaw.message : Flaw → String
  | words w => w.message
  | unknownCommand name => "Unknown command: " ++ name
  | unknownFlag flag => "Unknown flag: " ++ flag
  | usage command arguments => "Usage: " ++ command ++ " " ++ " ".intercalate arguments

/-- An argument that is meant as a flag: a dash and more. -/
def isFlag (arg : String) : Bool :=
  match arg.toList with
  | '-' :: _ :: _ => true
  | _ => false

/-- The arguments that are no flags, and the flags among them, all of which must be allowed. -/
def splitFlags (allowed : List String) : List String → Except Flaw (List String × List String)
  | [] => .ok ([], [])
  | arg :: args =>
    if isFlag arg then
      if arg ∈ allowed then
        (splitFlags allowed args).map fun (plain, flags) => (plain, arg :: flags)
      else .error (.unknownFlag arg)
    else (splitFlags allowed args).map fun (plain, flags) => (arg :: plain, flags)

/-- The only argument of a command. -/
def oneKey (command : String) : List String → Except Flaw String
  | [key] => .ok key
  | _ => .error (.usage command ["KEY"])

/-- The two arguments of a command. -/
def keyAndValue (command : String) : List String → Except Flaw (String × String)
  | [key, value] => .ok (key, value)
  | _ => .error (.usage command ["KEY", "VALUE"])

/-- The root if there are no arguments. -/
def orRoot (args : List String) : List String := if args.isEmpty then ["/"] else args

/-- The command of a name and its arguments. -/
def Command.parse (name : String) (args : List String) : Except Flaw Command :=
  match name with
  | "get" => do
    let (plain, flags) ← splitFlags ["-r", "-s"] args
    let key ← oneKey name plain
    return .request (.get key ("-r" ∈ flags) (some ("-s" ∈ flags)))
  | "ls" => do return .request (.get (← oneKey name (orRoot args)) false (some true))
  | "tree" => do return .request (.get (← oneKey name (orRoot args)) true (some true))
  | "set" => do
    let (key, value) ← keyAndValue name args
    return .request (.set key false (some value))
  | "mkdir" => do return .request (.create (← oneKey name args) true none)
  | "create" => do
    let (key, value) ← keyAndValue name args
    return .request (.create key false (some value))
  | "update" => do
    let (key, value) ← keyAndValue name args
    return .request (.update key (some value))
  | "rm" => do
    let (plain, flags) ← splitFlags ["-r", "-d"] args
    let key ← oneKey name plain
    return .request (.delete key ("-r" ∈ flags) ("-d" ∈ flags))
  | "stats" => if args.isEmpty then .ok .stats else .error (.usage name [])
  | _ => .error (.unknownCommand name)

/-- The name and the meaning of the command in a line; `none` for a blank line or a comment. -/
def parseLine (line : String) : Except Flaw (Option (String × Command)) :=
  match words line with
  | .error w => .error (.words w)
  | .ok [] => .ok none
  | .ok (name :: args) => (Command.parse name args).map fun c => some (name, c)

/-! ### Execution -/

/-- What a command shows. -/
inductive Output where
  | result (r : Result)
  | stats (s : Stats)
deriving Inhabited, Repr

/-- The counters as a JSON object. -/
def statsJson (s : Stats) : Json := .obj (s.counters.map fun c => (c.1, .int c.2))

def Output.toJson : Output → Json
  | result r => r.toJson
  | stats s => statsJson s

/-- Why a line did not succeed. -/
inductive LineFault where
  | flaw (f : Flaw)
  | fault (f : Fault)
deriving Inhabited, Repr

def LineFault.message : LineFault → String
  | flaw f => f.message
  | fault f => f.message

/-- What a line comes to: nothing, the name of its command and what that shows, or a fault. -/
abbrev LineOutcome : Type := Except LineFault (Option (String × Output))

/-- Runs a command. -/
def Command.run (messages : Messages) : Command → Store.Call Output
  | .request r => do return .result (← Store.perform messages r)
  | .stats => do return .stats (← get).stats

/-- Runs a line: what it comes to, and the store after it. -/
def execute (messages : Messages) (line : String) (s : Store) : LineOutcome × Store :=
  match parseLine line with
  | .error f => (.error (.flaw f), s)
  | .ok none => (.ok none, s)
  | .ok (some (name, c)) =>
    match c.run messages s with
    | .ok output s => (.ok (some (name, output)), s)
    | .error f s => (.error (.fault f), s)

end TreeStore.Shell
