/-!
# Paths

A key is any text; its *parts* stand between the `/` characters.  `segments key` drops the empty
parts and `.`, and lets every `..` cancel the part kept before it: what is left names a node by the
list of names from the root down.  `normalize key` writes the segments as a path again, which is the
one canonical spelling of that place.

* `parts`, `split` take a text apart, `render`, `join` put it together;
* `segments` is a fold of `push`, which keeps the deepest segment on top, so `..` is a pop.
-/

namespace TreeStore.Path

/-- The pieces of a character list between the `/`; there is always at least one piece. -/
def pieces : List Char → List (List Char)
  | [] => [[]]
  | c :: cs =>
    if c = '/' then [] :: pieces cs
    else match pieces cs with
      | [] => [[c]]
      | p :: ps => (c :: p) :: ps

/-- The parts of a key between its `/` characters, empty ones included. -/
def parts (key : String) : List String := (pieces key.toList).map String.ofList

/-- One more part of a key, on a stack of segments whose deepest is on top. -/
def push (stack : List String) (part : String) : List String :=
  if part = "" ∨ part = "." then stack
  else if part = ".." then stack.tail
  else part :: stack

/-- The names from the root down to the place a key stands for. -/
def segments (key : String) : List String := ((parts key).foldl push []).reverse

/-- The canonical path with the given segments; without segments it is the root `/`. -/
def render : List String → String
  | [] => "/"
  | p :: ps => String.ofList ((p :: ps).flatMap fun q => '/' :: q.toList)

/-- The canonical absolute path of a key; `..` never climbs above the root. -/
def normalize (key : String) : String := render (segments key)

/-- The non-empty parts of a path, with no special reading of `.` and `..`. -/
def split (path : String) : List String := (parts path).filter (· ≠ "")

/-- The path of `name` inside the directory with path `parent`. -/
def join (parent name : String) : String :=
  if parent = "/" then "/" ++ name else parent ++ "/" ++ name

/-- What stands after the last `/` of a key. -/
def baseName (key : String) : String := (parts key).getLastD ""

/-- A name that can be a segment: not empty, without `/`, and neither `.` nor `..`. -/
def IsSegment (name : String) : Prop :=
  name ≠ "" ∧ '/' ∉ name.toList ∧ name ≠ "." ∧ name ≠ ".."

instance (name : String) : Decidable (IsSegment name) := by unfold IsSegment; infer_instance

/-! ### First equations -/

@[simp] theorem pieces_nil : pieces [] = [[]] := rfl

theorem pieces_ne_nil (cs : List Char) : pieces cs ≠ [] := by
  cases cs with
  | nil => simp
  | cons c cs =>
    rw [pieces]
    split
    · simp
    · split <;> simp

@[simp] theorem segments_empty : segments "" = [] := by decide

@[simp] theorem render_nil : render [] = "/" := rfl

theorem push_of_isSegment {stack : List String} {part : String} (h : IsSegment part) :
    push stack part = part :: stack := by
  simp [push, h.1, h.2.2.1, h.2.2.2]

end TreeStore.Path
