import TreeStore.Proofs.Store.Reads

/-!
# The tree with the order of siblings

`tree` is the whole tree of a store.  It is determined by what stands at each path and by the names
in each directory in their order (`Sound.tree_eq_iff`).  A request that succeeds changes the former
as `Request.effect` says and the latter as `Request.reorder` says (`Sound.names_of_ok`), so that
laws about trees are laws about these two.
-/

namespace TreeStore

/-- The names in each directory, in their order. -/
abbrev Order := List String → List String

namespace Order

/-- The name that comes after `q` on the way to `p`. -/
def next (q p : List String) : Option String := if q <+: p then p[q.length]? else none

theorem next_eq_some_iff {q p : List String} {n : String} : next q p = some n ↔ q ++ [n] <+: p := by
  unfold next
  constructor
  · intro h
    split_ifs at h with hq
    obtain ⟨rest, rfl⟩ := hq
    cases rest with
    | nil => simp at h
    | cons m rest =>
      obtain rfl : m = n := by simpa using h
      exact ⟨rest, by simp⟩
  · rintro ⟨rest, rfl⟩
    simp

section Next

variable {p q : List String} {n : String}

theorem next_self : next p (p ++ [n]) = some n := next_eq_some_iff.mpr List.prefix_rfl

theorem next_concat (h : q ≠ p) : next q (p ++ [n]) = next q p := by
  refine Option.ext fun m => ?_
  rw [next_eq_some_iff, next_eq_some_iff, List.prefix_concat_iff, or_iff_right]
  exact fun heq => h (List.append_inj' heq rfl).1

theorem next_of_long (h : p.length ≤ q.length) : next q p = none := by
  refine Option.eq_none_iff_forall_ne_some.mpr fun m hm => ?_
  have := (next_eq_some_iff.mp hm).length_le
  rw [List.length_append, List.length_singleton] at this
  omega

end Next

variable (o : Order)

/-- A new path: in each directory on the way, a name that led to nothing becomes the last one. -/
def grow (M : PathMap) (p : List String) : Order := fun q =>
  match next q p with
  | some n => if M (q ++ [n]) = none then o q ++ [n] else o q
  | none => o q

/-- Nothing below a path any more. -/
def clear (p : List String) : Order := fun q => if p <+: q then [] else o q

/-- Nothing at a path and below it any more. -/
def erase (p : List String) : Order := fun q =>
  if p <+: q then []
  else match Graph.childOf q p with
    | some n => (o q).erase n
    | none => o q

end Order

/-- The names in each directory after the request, if it succeeds. -/
def Request.reorder (M : PathMap) (o : Order) (r : Request) : Order :=
  match r with
  | .get .. | .update .. => o
  | .create .. => o.grow M r.path
  | .set .. => if M r.path = none then o.grow M r.path else o.clear r.path
  | .delete .. => o.erase r.path

/-! ### One request -/

namespace Graph

variable {g g' : Graph} (hg : g.Linked) (hg' : g'.Linked) (h : g.KeepsOrder g')
  {p : List String} {e : Entry}
include hg hg' h

theorem Linked.names_grow (hmap : g'.pathMap = g.pathMap.grow p e) :
    g'.names = Order.grow g.names g.pathMap p := by
  have hthere (x : List String) : g'.pathMap x ≠ none ↔ g.pathMap x ≠ none ∨ x <+: p := by
    rw [hmap, PathMap.grow_ne_none_iff]
  funext q
  unfold Order.grow
  cases hn : Order.next q p with
  | none =>
    refine hg.names_kept hg' h fun m => ?_
    rw [hthere, ← Order.next_eq_some_iff, hn, or_iff_left (Option.some_ne_none m).symm]
  | some n =>
    have hm (m : String) : q ++ [m] <+: p ↔ m = n := by
      rw [← Order.next_eq_some_iff, hn, Option.some.injEq, eq_comm]
    show _ = if _ then _ else _
    split_ifs with habsent
    · exact hg.names_concat hg' h habsent fun m => by rw [hthere, hm]
    · refine hg.names_kept hg' h fun m => ?_
      rw [hthere, hm, or_iff_left_of_imp]
      rintro rfl
      exact habsent

theorem Linked.names_clear (hp : g.pathMap p ≠ none) (hmap : g'.pathMap = g.pathMap.replace p e) :
    g'.names = Order.clear g.names p := by
  have hentry (x : List String) : g'.pathMap x = g.pathMap.replace p e x := congrFun hmap x
  funext q
  unfold Order.clear
  split_ifs with hq
  · refine hg'.names_eq_nil_iff.mpr fun n => ?_
    have hbelow : p <+: q ++ [n] := hq.trans (List.prefix_append q [n])
    have hne : q ++ [n] ≠ p := fun heq => not_concat_prefix_self q n (heq ▸ hq)
    rw [hentry, PathMap.replace, if_neg hne, if_pos hbelow]
  · refine hg.names_kept hg' h fun n => ?_
    rw [hentry, PathMap.replace]
    split_ifs with hself hbelow
    · simp [hself, hp]
    · exact absurd (List.prefix_concat_iff.mp hbelow) (not_or.mpr ⟨Ne.symm hself, hq⟩)
    · rfl

theorem Linked.names_remove (hmap : g'.pathMap = g.pathMap.erase p) :
    g'.names = Order.erase g.names p := by
  have hthere (x : List String) : g'.pathMap x ≠ none ↔ g.pathMap x ≠ none ∧ ¬ p <+: x := by
    rw [hmap, PathMap.erase]
    split_ifs with hx <;> simp [hx]
  funext q
  unfold Order.erase
  split_ifs with hq
  · refine hg'.names_eq_nil_iff.mpr fun n => ?_
    by_contra hne
    exact ((hthere _).mp hne).2 (hq.trans (List.prefix_append q [n]))
  · have hself (m : String) : p <+: q ++ [m] ↔ childOf q p = some m := by
      rw [childOf_eq_some_iff, List.prefix_concat_iff, or_iff_left hq]
    cases hn : childOf q p with
    | none =>
      refine hg.names_kept hg' h fun m => ?_
      rw [hthere, hself, hn, and_iff_left (Option.some_ne_none m).symm]
    | some n =>
      refine hg.names_erase hg' h fun m => ?_
      rw [hthere, hself, hn, Option.some.injEq, ne_eq m, eq_comm]

end Graph

namespace Store

open TreeStore.Graph (rootId)
open TreeStore.Path

/-- The whole tree. -/
def tree (s : Store) : Node := s.graph.view rootId

theorem snapshot?_root (s : Store) : s.graph.snapshot? [] = some s.tree := s.graph.snapshot?_root

section Sound

variable {s t : Store} {messages : Messages} {r : Request} {result : Result} (hs : s.Sound)
include hs

/-- What a success makes of the order of siblings. -/
theorem Sound.names_of_ok (h : perform messages r s = .ok result t) :
    t.graph.names = r.reorder s.pathMap s.graph.names := by
  obtain ⟨hr, ht, hmap, -, horder, -⟩ := hs.of_ok h
  cases r with
  | get key recursive sorted =>
    funext q
    exact hs.linked.names_eq ht.linked horder fun n => congrFun hmap _
  | create key isDir value =>
    rw [Request.effect] at hmap
    rw [Request.reorder]
    exact hs.linked.names_grow ht.linked horder hmap
  | set key isDir value =>
    rw [Request.effect] at hmap
    rw [Request.reorder]
    split_ifs at hmap ⊢ with hnone
    · exact hs.linked.names_grow ht.linked horder hmap
    · exact hs.linked.names_clear ht.linked horder hnone hmap
  | update key value =>
    have hthere := Request.present_of_success hs.closed hr (by simp [Request.action])
      (by simp [Request.action])
    funext q
    refine hs.linked.names_kept ht.linked horder fun n => ?_
    show t.pathMap (q ++ [n]) ≠ none ↔ s.pathMap (q ++ [n]) ≠ none
    rw [hmap, Request.effect, PathMap.write]
    split_ifs with hself
    · simp [hself, hthere]
    · rfl
  | delete key recursive dir =>
    rw [Request.effect] at hmap
    rw [Request.reorder]
    exact hs.linked.names_remove ht.linked horder hmap

/-- A request that is not refused succeeds, and this is what it does. -/
theorem Sound.perform_ok (messages : Messages) (hr : r.refusal s.pathMap = none) :
    ∃ result t, perform messages r s = .ok result t ∧ t.Sound ∧
      t.pathMap = r.effect s.pathMap ∧ t.graph.names = r.reorder s.pathMap s.graph.names ∧
      s.Answered r result t.graph := by
  obtain ⟨result, t, hok⟩ := (hs.perform_ok_iff messages r).mpr hr
  obtain ⟨-, ht, hmap, hq, -, -⟩ := hs.of_ok hok
  exact ⟨result, t, hok, ht, hmap, hs.names_of_ok hok, hq⟩

/-! ### What determines a tree -/

/-- The tree holds what is found at each path. -/
theorem Sound.snapshot?_iff_mem {p : List String} {n : Node} :
    s.graph.snapshot? p = some n ↔ n ∈ s.tree.subtree ∧ split n.key = p := by
  have hroot := s.snapshot?_root
  constructor
  · intro hn
    have hthere := Graph.exists_snapshot?_iff.mp ⟨n, hn⟩
    have hmem : p ∈ (s.tree.subtree.map Node.key).map split :=
      Graph.below_of_snapshot? hroot ▸ hs.linked.mem_below.mpr ⟨List.nil_prefix, hthere⟩
    obtain ⟨k, hk, rfl⟩ := List.mem_map.mp hmem
    obtain ⟨d, hd, rfl⟩ := List.mem_map.mp hk
    have hsame := hs.snapshot?_of_mem hroot hd
    rw [hn] at hsame
    obtain rfl := Option.some.inj hsame
    exact ⟨hd, rfl⟩
  · rintro ⟨hn, rfl⟩
    exact hs.snapshot?_of_mem hroot hn

/-- Two trees are the same if the same stands at each path and siblings have the same order, and
only then. -/
theorem Sound.tree_eq_iff (ht : t.Sound) :
    t.tree = s.tree ↔ t.pathMap = s.pathMap ∧ t.graph.names = s.graph.names := by
  constructor
  · intro h
    have hsnap (p : List String) : t.graph.snapshot? p = s.graph.snapshot? p :=
      Option.ext fun n => by rw [ht.snapshot?_iff_mem, hs.snapshot?_iff_mem, h]
    have hall (p : List String) :
        t.pathMap p = s.pathMap p ∧ t.graph.names p = s.graph.names p := by
      cases hn : s.graph.snapshot? p with
      | none =>
        have hs' := Graph.snapshot?_eq_none_iff.mp hn
        have ht' := Graph.snapshot?_eq_none_iff.mp ((hsnap p).trans hn)
        rw [ht.linked.names_of_leaf (by simp [ht']), hs.linked.names_of_leaf (by simp [hs'])]
        exact ⟨ht'.trans hs'.symm, rfl⟩
      | some n =>
        have hn' := (hsnap p).trans hn
        rw [← ht.linked.names_of_snapshot? hn', ← hs.linked.names_of_snapshot? hn]
        exact ⟨(ht.linked.pathMap_of_snapshot? hn').trans
          (hs.linked.pathMap_of_snapshot? hn).symm, rfl⟩
    exact ⟨funext fun p => (hall p).1, funext fun p => (hall p).2⟩
  · rintro ⟨hmap, hnames⟩
    have hsnap := hs.linked.snapshot?_congr ht.linked [] (fun q => congrFun hmap _)
      fun q => congrFun hnames _
    rw [s.snapshot?_root, t.snapshot?_root] at hsnap
    exact Option.some.inj hsnap

end Sound

end Store

end TreeStore
