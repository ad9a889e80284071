import Mathlib.Data.List.Induction
import TreeStore.Path

/-!
# Canonical paths and their segments

A list of segments and its canonical path determine each other: `split` and `segments` give back the
list that `render` was given, `join` adds one segment at the end, and `baseName` reads the last one
off.  `IsPath` is the condition on the list under which this holds, and it holds of every list that
`segments` gives.
-/

namespace TreeStore.Path

/-- A list of names that can all be segments. -/
def IsPath (p : List String) : Prop := ∀ n ∈ p, IsSegment n

theorem isPath_nil : IsPath [] := by simp [IsPath]

theorem isPath_append {p q : List String} : IsPath (p ++ q) ↔ IsPath p ∧ IsPath q := by
  simp only [IsPath, List.mem_append]
  constructor
  · exact fun h => ⟨fun n hn => h n (Or.inl hn), fun n hn => h n (Or.inr hn)⟩
  · rintro ⟨h1, h2⟩ n (hn | hn)
    · exact h1 n hn
    · exact h2 n hn

theorem isPath_singleton {n : String} : IsPath [n] ↔ IsSegment n := by simp [IsPath]

/-! ### Parts -/

theorem pieces_of_not_mem {cs : List Char} (h : '/' ∉ cs) : pieces cs = [cs] := by
  induction cs with
  | nil => rfl
  | cons c cs ih =>
    simp only [List.mem_cons, not_or] at h
    rw [pieces, if_neg (Ne.symm h.1), ih h.2]

theorem pieces_append_slash (cs ds : List Char) :
    pieces (cs ++ '/' :: ds) = pieces cs ++ pieces ds := by
  induction cs with
  | nil => simp [pieces]
  | cons c cs ih =>
    rw [List.cons_append, pieces, pieces, ih]
    by_cases hc : c = '/'
    · rw [if_pos hc, if_pos hc, List.cons_append]
    · rw [if_neg hc, if_neg hc]
      cases hcs : pieces cs with
      | nil => exact absurd hcs (pieces_ne_nil cs)
      | cons p ps => rfl

theorem not_mem_of_mem_pieces {cs p : List Char} (h : p ∈ pieces cs) : '/' ∉ p := by
  induction cs generalizing p with
  | nil => simp only [pieces, List.mem_singleton] at h; subst h; simp
  | cons c cs ih =>
    rw [pieces] at h
    split_ifs at h with hc
    · rcases List.mem_cons.mp h with rfl | h
      · simp
      · exact ih h
    · cases hcs : pieces cs with
      | nil => exact absurd hcs (pieces_ne_nil cs)
      | cons q qs =>
        simp only [hcs, List.mem_cons] at h ih
        rcases h with rfl | h
        · have hq := ih (Or.inl rfl)
          simp only [List.mem_cons, not_or]
          exact ⟨Ne.symm hc, hq⟩
        · exact ih (Or.inr h)

theorem parts_of_not_mem {n : String} (h : '/' ∉ n.toList) : parts n = [n] := by
  simp [parts, pieces_of_not_mem h]

theorem parts_append_slash (a b : String) : parts (a ++ "/" ++ b) = parts a ++ parts b := by
  have h : (a ++ "/" ++ b).toList = a.toList ++ '/' :: b.toList := by simp
  rw [parts, h, pieces_append_slash, List.map_append]
  rfl

theorem not_mem_of_mem_parts {key n : String} (h : n ∈ parts key) : '/' ∉ n.toList := by
  obtain ⟨p, hp, rfl⟩ := List.mem_map.mp h
  simpa using not_mem_of_mem_pieces hp

/-! ### Segments of a key -/

theorem mem_push {stack : List String} {part n : String} (h : n ∈ push stack part) :
    n ∈ stack ∨ n = part ∧ part ≠ "" ∧ part ≠ "." ∧ part ≠ ".." := by
  unfold push at h
  split_ifs at h with h1 h2
  · exact Or.inl h
  · exact Or.inl (List.mem_of_mem_tail h)
  · rw [not_or] at h1
    rcases List.mem_cons.mp h with rfl | h
    · exact Or.inr ⟨rfl, h1.1, h1.2, h2⟩
    · exact Or.inl h

theorem isPath_foldl_push {ps stack : List String} (hp : ∀ p ∈ ps, '/' ∉ p.toList)
    (hs : IsPath stack) : IsPath (ps.foldl push stack) := by
  induction ps generalizing stack with
  | nil => exact hs
  | cons p ps ih =>
    refine ih (fun q hq => hp q (List.mem_cons_of_mem p hq)) fun n hn => ?_
    rcases mem_push hn with hn | ⟨rfl, h1, h2, h3⟩
    · exact hs n hn
    · exact ⟨h1, hp n (List.mem_cons_self ..), h2, h3⟩

theorem isPath_segments (key : String) : IsPath (segments key) := by
  have h := isPath_foldl_push (fun p hp => @not_mem_of_mem_parts key p hp) isPath_nil
  exact fun n hn => h n (List.mem_reverse.mp hn)

theorem foldl_push_of_isPath {p : List String} (hp : IsPath p) (stack : List String) :
    p.foldl push stack = p.reverse ++ stack := by
  induction p generalizing stack with
  | nil => rfl
  | cons n p ih =>
    rw [List.foldl_cons, push_of_isSegment (hp n (List.mem_cons_self ..)),
      ih fun m hm => hp m (List.mem_cons_of_mem n hm)]
    simp

/-! ### Canonical paths -/

theorem render_eq_root_iff {p : List String} (hp : IsPath p) : render p = "/" ↔ p = [] := by
  cases p with
  | nil => simp
  | cons n p =>
    simp only [reduceCtorEq, iff_false]
    intro h
    have hn := (hp n (List.mem_cons_self ..)).1
    have := congrArg String.toList h
    simp [render] at this
    exact hn this.1

theorem join_render {p : List String} (hp : IsPath p) (n : String) :
    join (render p) n = render (p ++ [n]) := by
  unfold join
  split_ifs with h
  · rw [(render_eq_root_iff hp).mp h]
    apply String.toList_injective
    simp [render]
  · cases p with
    | nil => exact absurd rfl h
    | cons m p =>
      apply String.toList_injective
      simp [render]

theorem length_join (parent n : String) :
    (join parent n).length = (if parent = "/" then 1 else parent.length + 1) + n.length := by
  unfold join
  split_ifs
  · rw [String.length_append]
    rfl
  · rw [String.length_append, String.length_append]
    rfl

theorem length_lt_length_join {n : String} (hn : n ≠ "") (parent : String) :
    parent.length < (join parent n).length := by
  have hpos : n.length ≠ 0 := fun h => hn (String.length_eq_zero_iff.mp h)
  rw [length_join]
  split_ifs with hp
  · have h1 : parent.length = 1 := by rw [hp]; rfl
    omega
  · omega

theorem join_ne_root {n : String} (hn : n ≠ "") (parent : String) : join parent n ≠ "/" := by
  intro h
  have hpos : n.length ≠ 0 := fun h => hn (String.length_eq_zero_iff.mp h)
  have hl : (join parent n).length = 1 := by rw [h]; rfl
  rw [length_join] at hl
  split_ifs at hl
  · omega
  · omega

theorem join_ne_self {n : String} (hn : n ≠ "") (parent : String) : join parent n ≠ parent :=
  fun h => absurd (congrArg String.length h) (Nat.ne_of_gt (length_lt_length_join hn parent))

theorem baseName_join {n : String} (hn : '/' ∉ n.toList) (parent : String) :
    baseName (join parent n) = n := by
  have key : ∀ a : String, baseName (a ++ "/" ++ n) = n := by
    intro a
    rw [baseName, parts_append_slash, parts_of_not_mem hn]
    simp
  unfold join
  split_ifs
  · simpa using key ""
  · exact key parent

theorem parts_render {p : List String} (hp : IsPath p) (hne : p ≠ []) :
    parts (render p) = "" :: p := by
  induction p using List.reverseRecOn with
  | nil => exact absurd rfl hne
  | append_singleton p n ih =>
    obtain ⟨hp, hn⟩ := isPath_append.mp hp
    have hn := isPath_singleton.mp hn
    rw [← join_render hp, join]
    by_cases h : p = []
    · subst h
      have h0 : parts "" = [""] := by decide
      have h1 := parts_append_slash "" n
      rw [parts_of_not_mem hn.2.1, h0] at h1
      simpa using h1
    · rw [if_neg ((render_eq_root_iff hp).not.mpr h), parts_append_slash, ih hp h,
        parts_of_not_mem hn.2.1, List.cons_append]

theorem split_render {p : List String} (hp : IsPath p) : split (render p) = p := by
  by_cases h : p = []
  · subst h; decide
  · rw [split, parts_render hp h, List.filter_cons_of_neg (by simp), List.filter_eq_self]
    exact fun n hn => by simpa using (hp n hn).1

theorem segments_render {p : List String} (hp : IsPath p) : segments (render p) = p := by
  by_cases h : p = []
  · subst h; decide
  · have h0 : push [] "" = [] := by simp [push]
    rw [segments, parts_render hp h, List.foldl_cons, h0, foldl_push_of_isPath hp]
    simp

theorem split_normalize (key : String) : split (normalize key) = segments key :=
  split_render (isPath_segments key)

theorem isPath_split_normalize (key : String) : IsPath (split (normalize key)) := by
  rw [split_normalize]; exact isPath_segments key

theorem render_split_normalize (key : String) : render (split (normalize key)) = normalize key := by
  rw [split_normalize]; rfl

theorem normalize_render {p : List String} (hp : IsPath p) : normalize (render p) = render p := by
  rw [normalize, segments_render hp]

theorem normalize_eq_root_iff (key : String) :
    normalize key = "/" ↔ split (normalize key) = [] := by
  rw [split_normalize]
  exact render_eq_root_iff (isPath_segments key)

theorem render_injective {p q : List String} (hp : IsPath p) (hq : IsPath q)
    (h : render p = render q) : p = q := by
  rw [← segments_render hp, ← segments_render hq, h]

end TreeStore.Path
