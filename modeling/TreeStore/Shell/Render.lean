import TreeStore.Shell.Command
import TreeStore.Shell.Screen

/-!
# What commands show

In the JSON style an output is the JSON text of its result, and a refusal that of its error.  In the
plain style a mutation and a leaf are one line with the action and a label, a directory that was
read is a table of its children, `tree` draws the whole subtree, and the counters are a table.  A
line that is no command shows why in a line of text, in either style.  All but the JSON texts are
left to a screen.
-/

namespace TreeStore.Shell

/-- How outputs are shown. -/
inductive Style where
  | plain
  | json
deriving DecidableEq, Inhabited, Repr

section Plain

variable (screen : Screen)

/-! ### Labels and trees -/

/-- The node in short, with style tags: the name of a directory with a slash, a leaf with its
value. -/
def label (n : Node) : String :=
  if n.isRoot then "[blue]/[/blue]"
  else if n.isDir then "[blue]" ++ screen.escape n.name ++ "/[/blue]"
  else screen.escape n.name ++ " = " ++ screen.escape (Text.quotedOrNone n.value)

mutual
/-- The labels of a subtree. -/
def branch : Node → Branch
  | .leaf k v => .node (label screen (.leaf k v)) []
  | .dir k cs => .node (label screen (.dir k cs)) (branches cs)

/-- The labels of siblings and what is below them. -/
def branches : List Node → List Branch
  | [] => []
  | c :: cs => branch c :: branches cs
end

/-! ### Tables -/

/-- The children of a directory, one in a row. -/
def listingTable (n : Node) : Table :=
  { title := some (screen.escape n.key)
    header := ["Type", "Key", "Value"]
    rows := n.children.map fun c =>
      if c.isDir then ["D", screen.escape c.key, ""]
      else ["F", screen.escape c.key, screen.escape (Text.quotedOrNone c.value)] }

/-- The counters, one in a row. -/
def statsTable (s : Stats) : Table :=
  { header := ["Counter", "Value"]
    rows := s.counters.map fun c => [c.1, toString c.2] }

/-! ### Outputs -/

/-- The line for a mutation or a leaf; a deletion does not say what was there before. -/
def resultLine (r : Result) : String :=
  let before :=
    match r.prev with
    | some p => if r.action = .delete then "" else " [dim](was " ++ label screen p ++ ")[/dim]"
    | none => ""
  screen.line ("[green]" ++ r.action.name ++ "[/green] " ++ label screen r.node ++ before)

/-- The lines for what a command gave back. -/
def plainLines (command : String) : Output → List String
  | .stats s => screen.table (statsTable s)
  | .result r =>
    if command = "tree" then screen.tree (branch screen r.node)
    else if r.node.isDir && r.action = .get then screen.table (listingTable screen r.node)
    else [resultLine screen r]

/-- What a command gave back, in a style. -/
def render (style : Style) (command : String) (output : Output) : String :=
  match style with
  | .json => output.toJson.render
  | .plain => "\n".intercalate (plainLines screen command output)

/-- Why a line did not succeed, in a style.  Only a refusal of the store has a JSON form. -/
def renderFault (style : Style) (f : LineFault) : String :=
  match f with
  | .fault (.refused e) =>
    match style with
    | .json => e.jsonText
    | .plain => screen.line ("[red]error[/red] " ++ screen.escape e.text)
  | f => screen.line ("[red]" ++ screen.escape f.message ++ "[/red]")

end Plain

end TreeStore.Shell
