import TreeStore.Text.Width

/-!
# Clusters

A cluster is a character with all that is drawn into it: marks, selectors, and what a joiner brings
with it.  Text is only cut between clusters.  Where a cut would run through a cluster of two cells,
a space stands for its first half.
-/

namespace TreeStore.Text

/-- Characters that are drawn as one, and the cells they take. -/
structure Cluster where
  chars : List Char
  width : Nat
deriving DecidableEq, Inhabited, Repr

/-- The cluster with more characters drawn into it, which may take more cells. -/
def Cluster.extend (k : Cluster) (cs : List Char) (more : Nat) : Cluster :=
  ⟨k.chars ++ cs, k.width + more⟩

/-- The clusters of some characters behind those that are done, the last one first; `last` is the
last character that took a cell and was not widened. -/
def clustersFrom (last : Option Char) (done : List Cluster) : List Char → List Cluster
  | [] => done.reverse
  | c :: cs =>
    let width := cellWidth c
    match done with
    | [] => clustersFrom (if width = 0 then none else some c) [⟨[c], width⟩] cs
    | k :: ks =>
      if c = joiner then
        match cs with
        | [] => (k.extend [c] 0 :: ks).reverse
        | d :: cs => clustersFrom last (k.extend [c, d] 0 :: ks) cs
      else if c = pictureSelector && last.any (within widened) then
        clustersFrom none (k.extend [c] 1 :: ks) cs
      else if width = 0 then clustersFrom last (k.extend [c] 0 :: ks) cs
      else clustersFrom (some c) (⟨[c], width⟩ :: k :: ks) cs

/-- The clusters of a text. -/
def clusters (cs : List Char) : List Cluster := clustersFrom none [] cs

/-- As many characters as fill `room` cells. -/
def takeCells (room : Nat) : List Cluster → List Char
  | [] => []
  | k :: ks =>
    if room = 0 then []
    else if k.width ≤ room then k.chars ++ takeCells (room - k.width) ks
    else [' ']

/-- The characters cut down to at most `room` cells. -/
def cutCells (room : Nat) (cs : List Char) : List Char :=
  if cells cs ≤ room then cs else takeCells room (clusters cs)

/-- Fills lines of `room` cells with clusters; the line that is being filled takes `used` cells. -/
def fillFrom (room used : Nat) (line : List Char) : List Cluster → List (List Char)
  | [] => if used = 0 then [] else [line]
  | k :: ks =>
    if room < used + k.width then line :: fillFrom room k.width k.chars ks
    else fillFrom room (used + k.width) (line ++ k.chars) ks

/-- The characters in lines of at most `room` cells, without regard to words. -/
def chop (room : Nat) (cs : List Char) : List (List Char) := fillFrom room 0 [] (clusters cs)

end TreeStore.Text
