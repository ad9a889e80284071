import TreeStore.Proofs.Path.Canonical

/-!
# Canonical paths, read from the end

A key may also be read from its last part to its first: each `..` is owed one name to its left, and
the next names pay for it; what is still owed at the front is forgiven.  The names that are not
spent in this way are the segments of the key (`segments_eq_survivors`), although `segments` reads
from the left and clips at the root.

So the canonical spelling of a key is a slash followed by its survivors, the canonical texts are
exactly those that `normalize` leaves alone, and taking them apart is undone by `join`
(`normalize_canonical`).
-/

namespace TreeStore.Path

/-! ### Reading from the end -/

/-- What has been read from the end of a key so far. -/
structure Backward where
  /-- How many names further left are going to be dropped. -/
  owed : Nat := 0
  kept : List String := []

/-- Reads the part in front of what has been read. -/
def Backward.read (part : String) (b : Backward) : Backward :=
  if part = "" ∨ part = "." then b
  else if part = ".." then { b with owed := b.owed + 1 }
  else if 0 < b.owed then { b with owed := b.owed - 1 }
  else { b with kept := part :: b.kept }

/-- Reads parts from the last to the first. -/
def backward (parts : List String) : Backward := parts.foldr Backward.read {}

/-- The parts of a key that are kept when it is read from the end. -/
def survivors (key : String) : List String := (backward (parts key)).kept

/-- Pushing parts drops what they owe from the stack and leaves what they keep on top. -/
theorem foldl_push_eq (ps stack : List String) :
    ps.foldl push stack = (backward ps).kept.reverse ++ stack.drop (backward ps).owed := by
  induction ps generalizing stack with
  | nil => rfl
  | cons part ps ih =>
    have hread : backward (part :: ps) = (backward ps).read part := rfl
    rw [List.foldl_cons, ih, hread, push, Backward.read]
    split_ifs with hskip hup howed
    · rfl
    · -- one more is owed: the stack loses its top first
      rw [← List.drop_one, List.drop_drop, Nat.add_comm]
    · -- the part itself pays
      obtain ⟨n, hn⟩ := Nat.exists_eq_add_one.mpr howed
      rw [hn, List.drop_succ_cons, Nat.add_sub_cancel]
    · rw [Nat.eq_zero_of_not_pos howed, List.reverse_cons, List.append_assoc]
      rfl

theorem segments_eq_survivors (key : String) : segments key = survivors key := by
  rw [segments, foldl_push_eq, List.drop_nil, List.append_nil, List.reverse_reverse, survivors]

/-! ### Texts with slashes -/

theorem intercalate_pieces (cs : List Char) : ['/'].intercalate (pieces cs) = cs := by
  induction cs with
  | nil => rfl
  | cons c cs ih =>
    obtain ⟨p, ps, hps⟩ := List.exists_cons_of_ne_nil (pieces_ne_nil cs)
    rw [hps] at ih
    rw [pieces, hps]
    split_ifs with hc
    · rw [List.intercalate_cons_cons, ih, hc]
      rfl
    · cases ps with
      | nil => rw [← ih]; rfl
      | cons q ps =>
        rw [← ih, List.intercalate_cons_cons, List.intercalate_cons_cons]
        rfl

theorem intercalate_parts (key : String) : "/".intercalate (parts key) = key := by
  apply String.toList_injective
  have hmap : (parts key).map String.toList = pieces key.toList := by
    rw [parts, List.map_map]
    simp
  rw [String.toList_intercalate, hmap]
  exact intercalate_pieces key.toList

theorem render_eq_intercalate (p : List String) : render p = "/" ++ "/".intercalate p := by
  cases p with
  | nil => rfl
  | cons n p =>
    induction p generalizing n with
    | nil =>
      apply String.toList_injective
      simp [render]
    | cons m p ih =>
      have hrest := congrArg String.toList (ih m)
      apply String.toList_injective
      simp only [render, String.toList_ofList, List.flatMap_cons] at hrest ⊢
      rw [hrest]
      simp

/-- The text is a slash followed by segments with slashes between them. -/
def IsCanonical (path : String) : Prop := ∃ p, IsPath p ∧ path = "/" ++ "/".intercalate p

theorem isCanonical_iff {path : String} : IsCanonical path ↔ ∃ p, IsPath p ∧ render p = path := by
  simp only [IsCanonical, render_eq_intercalate, eq_comm]

theorem isCanonical_normalize (key : String) : IsCanonical (normalize key) :=
  isCanonical_iff.mpr ⟨segments key, isPath_segments key, rfl⟩

theorem IsCanonical.normalize_eq {path : String} (h : IsCanonical path) :
    normalize path = path := by
  obtain ⟨p, hp, rfl⟩ := isCanonical_iff.mp h
  exact normalize_render hp

theorem foldl_join_render {p q : List String} (h : IsPath (p ++ q)) :
    q.foldl join (render p) = render (p ++ q) := by
  induction q generalizing p with
  | nil => rw [List.append_nil, List.foldl_nil]
  | cons n q ih =>
    obtain ⟨hp, -⟩ := isPath_append.mp h
    rw [List.append_cons] at h ⊢
    rw [List.foldl_cons, join_render hp, ih h]

theorem foldl_join {p : List String} (hp : IsPath p) : p.foldl join "/" = render p :=
  @foldl_join_render [] p hp

theorem IsCanonical.join_split {path : String} (h : IsCanonical path) :
    (split path).foldl join "/" = path := by
  obtain ⟨p, hp, rfl⟩ := isCanonical_iff.mp h
  rw [split_render hp, foldl_join hp]

/-- The canonical path of a key is a slash and, with slashes between them, the parts of the key that
are kept when it is read from the end; each of them is a segment.  The canonical texts are those
that `normalize` gives, and those that it leaves as they are; the segments of such a text, joined
one after the other, give it back. -/
theorem normalize_canonical (key : String) :
    ("/".intercalate (parts key) = key ∧ ∀ part ∈ parts key, '/' ∉ part.toList) ∧
    IsPath (survivors key) ∧
    normalize key = "/" ++ "/".intercalate (survivors key) ∧
    split (normalize key) = survivors key ∧
    normalize (normalize key) = normalize key ∧
    (normalize key = key ↔ IsCanonical key) ∧
    ((∃ k, normalize k = key) ↔ IsCanonical key) ∧
    (IsCanonical key → (split key).foldl join "/" = key) := by
  have hsegments := segments_eq_survivors key
  refine ⟨⟨intercalate_parts key, fun part => not_mem_of_mem_parts⟩, ?_, ?_, ?_,
    (isCanonical_normalize key).normalize_eq, ⟨fun h => ?_, IsCanonical.normalize_eq⟩,
    ⟨?_, fun h => ⟨key, h.normalize_eq⟩⟩, IsCanonical.join_split⟩
  · exact hsegments ▸ isPath_segments key
  · rw [normalize, hsegments, render_eq_intercalate]
  · rw [split_normalize, hsegments]
  · exact h ▸ isCanonical_normalize key
  · rintro ⟨k, rfl⟩
    exact isCanonical_normalize k

/-- More `..` than names in front of them, and empty parts. -/
theorem normalize_canonical_excess :
    survivors "a/../../b//c/d/./../..//e" = ["b", "e"] ∧
      normalize "a/../../b//c/d/./../..//e" = "/b/e" ∧
      (split "/b/e").foldl join "/" = "/b/e" := by
  have hkept : survivors "a/../../b//c/d/./../..//e" = ["b", "e"] := by decide +kernel
  obtain ⟨-, hpath, hnorm, -⟩ := normalize_canonical "a/../../b//c/d/./../..//e"
  rw [hkept] at hpath hnorm
  obtain ⟨-, -, -, -, -, -, -, hjoin⟩ := normalize_canonical "/b/e"
  exact ⟨hkept, hnorm, hjoin ⟨_, hpath, rfl⟩⟩

end TreeStore.Path
