import Mathlib.Data.List.DropRight
import TreeStore.Proofs.Path.Backward

/-!
# A key behind another one

With a slash between them, the second of two keys is read from the place that the first one leads
to.  The names that the second key owes at its front are dropped from the segments of the first, as
far as there are any, and its own segments stand behind what is left (`segments_append`).  So the
first key may be replaced by its canonical path, and a key without `..` only adds segments
(`normalize_append`).
-/

namespace TreeStore.Path

/-- How many levels a key climbs above the place that it is read from. -/
def climbs (key : String) : Nat := (backward (parts key)).owed

theorem owed_backward_eq_zero {ps : List String} (h : ".." ∉ ps) : (backward ps).owed = 0 := by
  induction ps with
  | nil => rfl
  | cons part ps ih =>
    rw [List.mem_cons, not_or] at h
    have hrest := ih h.2
    have hread : backward (part :: ps) = (backward ps).read part := rfl
    rw [hread, Backward.read]
    split_ifs with hskip hup howed
    · exact hrest
    · exact absurd hup.symm h.1
    · omega
    · exact hrest

theorem climbs_eq_zero {key : String} (h : ".." ∉ parts key) : climbs key = 0 :=
  owed_backward_eq_zero h

theorem segments_append (a b : String) :
    segments (a ++ "/" ++ b) = (segments a).rdrop (climbs b) ++ segments b := by
  have hkept : (backward (parts b)).kept = segments b := (segments_eq_survivors b).symm
  have hstack : (parts (a ++ "/" ++ b)).foldl push [] =
      (segments b).reverse ++ ((parts a).foldl push []).drop (climbs b) := by
    rw [parts_append_slash, List.foldl_append, foldl_push_eq, hkept, climbs]
  have hleft : (segments a).reverse = (parts a).foldl push [] := by
    rw [segments, List.reverse_reverse]
  rw [segments, hstack, List.reverse_append, List.reverse_reverse, ← hleft,
    List.rdrop_eq_reverse_drop_reverse]

theorem segments_normalize (key : String) : segments (normalize key) = segments key :=
  segments_render (isPath_segments key)

/-- In front of a slash a key may be replaced by its canonical path.  What follows drops as many
names as it climbs, all of them if it climbs higher, and adds its own segments; without a `..` in it
the segments of the two are just put together. -/
theorem normalize_append (a b : String) :
    normalize (a ++ "/" ++ b) = normalize (normalize a ++ "/" ++ b) ∧
    split (normalize (a ++ "/" ++ b)) =
      (split (normalize a)).rdrop (climbs b) ++ split (normalize b) ∧
    (".." ∉ parts b →
      split (normalize (a ++ "/" ++ b)) = split (normalize a) ++ split (normalize b)) := by
  have hsplit : split (normalize (a ++ "/" ++ b)) =
      (split (normalize a)).rdrop (climbs b) ++ split (normalize b) := by
    rw [split_normalize, split_normalize, split_normalize, segments_append]
  refine ⟨?_, hsplit, fun h => ?_⟩
  · rw [normalize, normalize, segments_append, segments_append, segments_normalize]
  · rw [hsplit, climbs_eq_zero h, List.rdrop_zero]

/-- Empty parts and `.` in a key without `..`, behind one that climbs above the root. -/
theorem normalize_append_plain :
    ".." ∉ parts "c//./d/" ∧
      split (normalize ("/../a/x/../b" ++ "/" ++ "c//./d/")) = ["a", "b", "c", "d"] ∧
      normalize ("/../a/x/../b" ++ "/" ++ "c//./d/") = normalize ("/a/b" ++ "/" ++ "c//./d/") := by
  have hplain : ".." ∉ parts "c//./d/" := by decide +kernel
  have hfirst : normalize "/../a/x/../b" = "/a/b" := by decide +kernel
  have hleft : split "/a/b" = ["a", "b"] := by decide +kernel
  have hright : split (normalize "c//./d/") = ["c", "d"] := by decide +kernel
  obtain ⟨hsame, -, hsum⟩ := normalize_append "/../a/x/../b" "c//./d/"
  rw [hfirst] at hsame hsum
  rw [hleft, hright] at hsum
  exact ⟨hplain, hsum hplain, hsame⟩

example : split (normalize ("/a/b" ++ "/" ++ "../../../c")) = ["c"] := by decide +kernel

end TreeStore.Path
