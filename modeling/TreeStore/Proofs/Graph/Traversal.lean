import TreeStore.Proofs.Graph.View

/-!
# Going through the tree

`descend p` lists the node at a path and all that is below it, each directory before what it holds;
`below p` lists their paths.  Both are given by one recursion over the siblings (`Linked.below_eq`),
from which follows what is listed (`Linked.mem_below`), that nothing is listed before a directory
above it (`Linked.pairwise_below`), and in which order the children of a directory are listed
(`Linked.children_below`).
-/

namespace TreeStore.Graph

/-- The node at a path and all that is below it, in the order of a walk through the tree. -/
def descend (g : Graph) (p : List String) : List Node := (g.snapshot? p).elim [] Node.subtree

/-- The paths of the nodes that a walk through the tree from a path on comes to. -/
def below (g : Graph) (p : List String) : List (List String) :=
  (g.descend p).map fun n => Path.split n.key

theorem below_of_snapshot? {g : Graph} {p : List String} {n : Node} (h : g.snapshot? p = some n) :
    (n.subtree.map Node.key).map Path.split = g.below p := by
  rw [below, descend, h, List.map_map]
  rfl

/-- The last name of a path that is a child of the place `q`. -/
def childOf (q x : List String) : Option String :=
  if x.dropLast = q then x.getLast? else none

theorem childOf_eq_some_iff {q x : List String} {n : String} :
    childOf q x = some n ↔ x = q ++ [n] := by
  unfold childOf
  constructor
  · intro h
    split_ifs at h with hq
    rw [← hq]
    exact (List.dropLast_append_getLast? n h).symm
  · rintro rfl
    simp

theorem childOf_eq_none {q x : List String} (h : x.length ≠ q.length + 1) :
    childOf q x = none := by
  refine Option.eq_none_iff_forall_ne_some.mpr fun n hn => h ?_
  rw [childOf_eq_some_iff.mp hn, List.length_append, List.length_singleton]

theorem childOf_concat (q p : List String) (n : String) :
    childOf q (p ++ [n]) = if p = q then some n else none := by
  simp [childOf]

/-- Of different names only one gives anything. -/
theorem flatMap_single {β : Type} {ns : List String} (hns : ns.Nodup) (k : String) (l : List β) :
    (ns.flatMap fun n => if n = k then l else []) = if k ∈ ns then l else [] := by
  induction ns with
  | nil => rfl
  | cons n ns ih =>
    obtain ⟨hn, hns⟩ := List.nodup_cons.mp hns
    rw [List.flatMap_cons, ih hns]
    by_cases hnk : n = k
    · subst hnk
      simp [hn]
    · simp [hnk, Ne.symm hnk]

section Linked

variable {g : Graph} (hg : Linked g)
include hg

/-! ### The recursion -/

theorem Linked.names_of_leaf {p : List String} (h : g.pathMap p ≠ some .dir) : g.names p = [] := by
  refine List.eq_nil_iff_forall_not_mem.mpr fun n hn => h ?_
  exact hg.closed_pathMap.up p n (hg.mem_names_iff.mp hn)

/-- The children in a snapshot are the snapshots of the children. -/
theorem Linked.children_of_snapshot? {p : List String} {n : Node} (h : g.snapshot? p = some n) :
    n.children = (g.names p).filterMap fun m => g.snapshot? (p ++ [m]) := by
  rw [hg.snapshot?_eq, Option.map_eq_some_iff] at h
  obtain ⟨e, he, rfl⟩ := h
  cases e with
  | leaf value =>
    rw [hg.names_of_leaf (by simp [he])]
    rfl
  | dir => rfl

theorem Linked.names_of_snapshot? {p : List String} {n : Node} (h : g.snapshot? p = some n) :
    n.children.map Node.name = g.names p := by
  rw [hg.children_of_snapshot? h, hg.names_children]

theorem Linked.descend_eq (p : List String) :
    g.descend p = (g.snapshot? p).toList ++ (g.names p).flatMap fun n => g.descend (p ++ [n]) := by
  have hchildren (ns : List String) :
      (ns.filterMap fun n => g.snapshot? (p ++ [n])).flatMap Node.subtree =
        ns.flatMap fun n => g.descend (p ++ [n]) := by
    induction ns with
    | nil => rfl
    | cons n ns ih =>
      rw [List.filterMap_cons, List.flatMap_cons, descend, ← ih]
      cases g.snapshot? (p ++ [n]) <;> rfl
  rw [descend, hg.snapshot?_eq]
  cases hp : g.pathMap p with
  | none => simp [hg.names_of_leaf (p := p) (by simp [hp])]
  | some e =>
    cases e with
    | leaf value => simp [hg.names_of_leaf (p := p) (by simp [hp]), Node.subtree]
    | dir => simp [Node.subtree, Node.subtreeAll_eq_flatMap, hchildren]

theorem Linked.below_eq (p : List String) :
    g.below p = (if g.pathMap p = none then [] else [p]) ++
      (g.names p).flatMap fun n => g.below (p ++ [n]) := by
  have hhead : (g.snapshot? p).toList.map (fun n => Path.split n.key) =
      if g.pathMap p = none then [] else [p] := by
    cases hp : g.snapshot? p with
    | none => simp [snapshot?_eq_none_iff.mp hp]
    | some n =>
      have hne := exists_snapshot?_iff.mp ⟨n, hp⟩
      simp [hne, hg.split_key_of_snapshot? hp]
  rw [below, hg.descend_eq, List.map_append, hhead, List.map_flatMap]
  rfl

omit hg in
theorem below_of_absent {p : List String} (h : g.pathMap p = none) : g.below p = [] := by
  rw [below, descend, snapshot?_eq_none_iff.mpr h]
  rfl

/-! ### What is listed -/

theorem Linked.mem_below {p x : List String} :
    x ∈ g.below p ↔ p <+: x ∧ g.pathMap x ≠ none := by
  have hM := hg.closed_pathMap
  induction p using hg.bottom_up with
  | hnone p hp =>
    rw [below_of_absent hp]
    simp only [List.not_mem_nil, false_iff, not_and]
    intro hpx hx
    exact hx (hM.none_of_prefix hpx hp)
  | hstep p ih =>
    rw [hg.below_eq, List.mem_append, List.mem_flatMap]
    constructor
    · rintro (h | ⟨n, -, hx⟩)
      · split_ifs at h with hp
        · cases h
        · rw [List.mem_singleton.mp h]
          exact ⟨List.prefix_rfl, hp⟩
      · obtain ⟨hpre, hx⟩ := (ih n).mp hx
        exact ⟨(List.prefix_append p [n]).trans hpre, hx⟩
    · rintro ⟨⟨rest, rfl⟩, hx⟩
      cases rest with
      | nil =>
        rw [List.append_nil] at hx ⊢
        exact Or.inl (by simp [hx])
      | cons n rest =>
        have hpre : p ++ [n] <+: p ++ n :: rest := ⟨rest, by simp⟩
        exact Or.inr ⟨n, hg.mem_names_iff.mpr (hM.present_of_prefix hpre hx),
          (ih n).mpr ⟨hpre, hx⟩⟩

/-- Every node that is listed is the one at its path. -/
theorem Linked.snapshot?_of_mem_descend {p : List String} {n : Node} (h : n ∈ g.descend p) :
    g.snapshot? (Path.split n.key) = some n := by
  induction p using hg.bottom_up with
  | hnone p hp =>
    rw [descend, snapshot?_eq_none_iff.mpr hp] at h
    cases h
  | hstep p ih =>
    rw [hg.descend_eq, List.mem_append, List.mem_flatMap] at h
    rcases h with h | ⟨m, -, hm⟩
    · have hp := Option.mem_toList.mp h
      rwa [hg.split_key_of_snapshot? hp]
    · exact ih m hm

/-! ### The order of the list -/

/-- No path is listed before one above it, and none twice. -/
theorem Linked.pairwise_below (p : List String) :
    (g.below p).Pairwise fun x y => ¬ y <+: x := by
  induction p using hg.bottom_up with
  | hnone p hp =>
    rw [below_of_absent hp]
    exact List.Pairwise.nil
  | hstep p ih =>
    rw [hg.below_eq, List.pairwise_append, List.pairwise_flatMap]
    refine ⟨by split_ifs <;> simp, ⟨fun n _ => ih n, ?_⟩, fun x hx y hy hyx => ?_⟩
    · refine (hg.nodup_names p).imp fun {m n} hmn x hx y hy hyx => hmn ?_
      -- two children above one path are the same
      have hm : p ++ [m] <+: x := (hg.mem_below.mp hx).1
      have hn : p ++ [n] <+: x := (hg.mem_below.mp hy).1.trans hyx
      have hsame := List.prefix_of_prefix_length_le hm hn (by simp)
      simpa using hsame.eq_of_length (by simp)
    · obtain ⟨n, -, hy⟩ := List.mem_flatMap.mp hy
      split_ifs at hx with hp
      · cases hx
      · obtain rfl := List.mem_singleton.mp hx
        have hlong := ((hg.mem_below.mp hy).1.trans hyx).length_le
        simp at hlong

theorem Linked.nodup_below (p : List String) : (g.below p).Nodup :=
  (hg.pairwise_below p).imp fun {x y} h heq => h (by rw [heq])

/-- From a path on, the children of a directory are listed in the order that they have there. -/
theorem Linked.children_below {p : List String} (hp : g.pathMap p ≠ none) (q : List String) :
    (g.below p).filterMap (childOf q) =
      if p <+: q then g.names q else (childOf q p).toList := by
  induction p using hg.bottom_up with
  | hnone p h => exact absurd h hp
  | hstep p ih =>
    have hchildren : ((g.names p).flatMap fun n => (g.below (p ++ [n])).filterMap (childOf q)) =
        (g.names p).flatMap fun n =>
          if p ++ [n] <+: q then g.names q else (childOf q (p ++ [n])).toList :=
      List.flatMap_congr fun n hn => ih n (hg.mem_names_iff.mp hn)
    rw [hg.below_eq, if_neg hp, List.filterMap_append, List.filterMap_flatMap, hchildren]
    by_cases hpq : p <+: q
    · obtain ⟨rest, rfl⟩ := hpq
      have hself : [p].filterMap (childOf (p ++ rest)) = [] := by
        have hlen : p.length ≠ (p ++ rest).length + 1 := by
          rw [List.length_append]
          omega
        simp [childOf_eq_none hlen]
      rw [hself, if_pos (List.prefix_append p rest), List.nil_append]
      cases rest with
      | nil =>
        have hone (n : String) : (if p ++ [n] <+: p then g.names p else
            (childOf p (p ++ [n])).toList) = [n] := by
          rw [if_neg (not_concat_prefix_self p n), childOf_concat, if_pos rfl, Option.toList_some]
        rw [List.append_nil]
        simp only [hone]
        exact List.flatMap_singleton' (g.names p)
      | cons k rest =>
        have hone (n : String) : (if p ++ [n] <+: p ++ k :: rest then g.names (p ++ k :: rest) else
            (childOf (p ++ k :: rest) (p ++ [n])).toList) =
              if n = k then g.names (p ++ k :: rest) else [] := by
          have hpre : p ++ [n] <+: p ++ k :: rest ↔ n = k := by simp
          simp [hpre, childOf_concat]
        simp only [hone, flatMap_single (hg.nodup_names p)]
        split_ifs with hk
        · rfl
        · -- nothing is below a place that is empty
          refine (hg.names_of_leaf fun h => ?_).symm
          have hpre : p ++ [k] <+: p ++ k :: rest := ⟨rest, by simp⟩
          exact hk (hg.mem_names_iff.mpr
            (hg.closed_pathMap.present_of_prefix hpre (by simp [h])))
    · have hne : p ≠ q := fun h => hpq (h ▸ List.prefix_rfl)
      have hone (n : String) : (if p ++ [n] <+: q then g.names q else
          (childOf q (p ++ [n])).toList) = [] := by
        have hpre : ¬p ++ [n] <+: q := fun h => hpq ((List.prefix_append p [n]).trans h)
        rw [if_neg hpre, childOf_concat, if_neg hne, Option.toList_none]
      simp only [hone, if_neg hpq]
      cases hq : childOf q p <;> simp [hq]

end Linked

end TreeStore.Graph
