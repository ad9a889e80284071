import TreeStore.Shell.Render

/-!
# The arguments of the program

The first argument is a subcommand, `run` with a script or `shell`; options and the script may
follow in any order.  An option with a value takes it from the next argument, whatever that looks
like, or from the same one (`--config=FILE`, `-cFILE`).  Of an option given twice the last one
counts, and behind `--` there are no more options; a first `--`, before the subcommand, is passed
over.
-/

namespace TreeStore.Shell

/-- Why arguments make no sense. -/
inductive UsageFlaw where
  | noSubcommand
  | unknownSubcommand (name : String)
  | unknownOption (name : String)
  | missingValue (option : String)
  | needlessValue (option : String)
  | missingScript
  | extraArgument (arg : String)
deriving DecidableEq, Inhabited, Repr

def UsageFlaw.message : UsageFlaw → String
  | noSubcommand => "Missing command."
  | unknownSubcommand name => "No such command '" ++ name ++ "'."
  | unknownOption name => "No such option: " ++ name
  | missingValue option => "Option '" ++ option ++ "' requires an argument."
  | needlessValue option => "Option '" ++ option ++ "' does not take a value."
  | missingScript => "Missing argument 'SCRIPT'."
  | extraArgument arg => "Got unexpected extra argument (" ++ arg ++ ")"

/-- What the options say. -/
structure Options where
  style : Style := .plain
  /-- The file with the configuration. -/
  config : Option String := none
  logLevel : Option String := none
deriving DecidableEq, Inhabited, Repr

/-- An option that has a value. -/
inductive ValueOption where
  | config
  | logLevel
deriving DecidableEq, Inhabited, Repr

/-- The value of an option is set. -/
def Options.put (o : Options) (option : ValueOption) (value : String) : Options :=
  match option with
  | .config => { o with config := some value }
  | .logLevel => { o with logLevel := some value }

/-- One argument on its own. -/
inductive Arg where
  | plain (s : String)
  | json
  /-- An option with a value that comes with it or in the next argument. -/
  | valued (name : String) (option : ValueOption) (value : Option String)
  | dashes
deriving DecidableEq, Inhabited, Repr

/-- The long option of a name, with the text behind its equals sign. -/
def longOption (name : String) (value : Option String) : Except UsageFlaw Arg :=
  match name with
  | "--json" =>
    match value with
    | none => .ok .json
    | some _ => .error (.needlessValue name)
  | "--config" => .ok (.valued name .config value)
  | "--log-level" => .ok (.valued name .logLevel value)
  | _ => .error (.unknownOption name)

/-- The meaning of an argument. -/
def Arg.ofString (s : String) : Except UsageFlaw Arg :=
  match s.toList with
  | ['-', '-'] => .ok .dashes
  | '-' :: '-' :: cs =>
    let name := String.ofList ('-' :: '-' :: cs.takeWhile (· != '='))
    match cs.dropWhile (· != '=') with
    | [] => longOption name none
    | _ :: value => longOption name (some (String.ofList value))
  | ['-', 'c'] => .ok (.valued "-c" .config none)
  | '-' :: 'c' :: value => .ok (.valued "-c" .config (some (String.ofList value)))
  | '-' :: c :: _ => .error (.unknownOption (String.ofList ['-', c]))
  | _ => .ok (.plain s)

/-- The options among some arguments, added to the given ones, and the arguments that are none. -/
def Options.read (o : Options) : List String → Except UsageFlaw (Options × List String)
  | [] => .ok (o, [])
  | arg :: args =>
    match Arg.ofString arg with
    | .error e => .error e
    | .ok .dashes => .ok (o, args)
    | .ok (.plain s) => (o.read args).map fun (o, rest) => (o, s :: rest)
    | .ok .json => Options.read { o with style := .json } args
    | .ok (.valued _ option (some value)) => (o.put option value).read args
    | .ok (.valued name option none) =>
      match args with
      | [] => .error (.missingValue name)
      | value :: args => (o.put option value).read args

/-- What to do. -/
inductive Task where
  /-- Run the script in a file. -/
  | run (script : String)
  /-- Answer the lines of the standard input. -/
  | shell
deriving DecidableEq, Inhabited, Repr

/-- The task and the options of the arguments behind a subcommand. -/
def readTask (name : String) (args : List String) : Except UsageFlaw (Task × Options) :=
  match Options.read {} args with
  | .error e => .error e
  | .ok (options, plain) =>
    match name, plain with
    | "run", [] => .error .missingScript
    | "run", [script] => .ok (.run script, options)
    | "shell", [] => .ok (.shell, options)
    | "run", _ :: extra :: _ | "shell", extra :: _ => .error (.extraArgument extra)
    | _, _ => .error (.unknownSubcommand name)

/-- The task and the options of the arguments from the subcommand on. -/
def readSubcommand : List String → Except UsageFlaw (Task × Options)
  | [] => .error .noSubcommand
  | name :: args =>
    if name = "run" ∨ name = "shell" then readTask name args else .error (.unknownSubcommand name)

/-- The task and the options of all arguments. -/
def readArguments : List String → Except UsageFlaw (Task × Options)
  | "--" :: args => readSubcommand args
  | args => readSubcommand args

end TreeStore.Shell
