import TreeStore.Proofs.Graph.Traversal
import TreeStore.Proofs.Store.Snapshots

/-!
# Dump and restore

A dump lists the nodes below the root in the order of a walk through the tree.  Creating them one
after the other in a new store gives the tree back, with the order of all children
(`Reachable.dump_restores`): each node finds its directory there and its own place empty, since no
path is listed before one above it and none twice.

While this goes on the new store shows exactly the paths that were created, and in each directory
the children among them in the order of the dump; this is what one creation keeps
(`Restored.create`).
-/

namespace TreeStore

/-- The request that creates a node as it is, without its children. -/
def Node.creation (n : Node) : Request := .create n.key n.isDir n.value

namespace Store

open TreeStore.Graph (rootId childOf)

/-- The nodes below the root, each directory before what it holds. -/
def dump (s : Store) : List Node := (s.graph.view rootId).subtree.tail

/-- Creates nodes one after the other. -/
def restore (messages : Messages) (nodes : List Node) (s : Store) : Store :=
  nodes.foldl (fun t n => (run (perform messages n.creation) t).2) s

/-! ### One creation -/

/-- A node is created in a directory that is there: it becomes the last child, and all else
stays. -/
theorem Sound.create_child {s : Store} (hs : s.Sound) (messages : Messages) {p : List String}
    {n : String} (hpath : Path.IsPath (p ++ [n])) (hp : s.pathMap p = some .dir)
    (hn : s.pathMap (p ++ [n]) = none) (isDir : Bool) (value : Option String) :
    ∃ result t,
      perform messages (.create (Path.render (p ++ [n])) isDir value) s = .ok result t ∧
      t.Sound ∧ t.pathMap = s.pathMap.write (p ++ [n]) (.new isDir value) ∧
      t.graph.names p = s.graph.names p ++ [n] ∧
      ∀ q, q ≠ p → t.graph.names q = s.graph.names q := by
  have hat : (Request.create (Path.render (p ++ [n])) isDir value).path = p ++ [n] := by
    rw [Request.path, Request.key, Path.normalize_render hpath, Path.split_render hpath]
  have hfree : (Request.create (Path.render (p ++ [n])) isDir value).refusal s.pathMap = none := by
    rw [Request.refusal, hat, if_neg (not_not.mpr hn)]
    exact PathMap.obstacle_of_free (hs.closed.blocker_of_gap hp hn [])
  obtain ⟨result, t, hok⟩ := (hs.perform_ok_iff messages _).mpr hfree
  obtain ⟨-, ht, hmap, -, horder, -⟩ := hs.of_ok hok
  have hwrite : t.pathMap = s.pathMap.write (p ++ [n]) (.new isDir value) := by
    rw [hmap, Request.effect, hat, hs.closed.grow_eq_write (by simp [hp])]
  have hentry (x : List String) : t.graph.pathMap x =
      if x = p ++ [n] then some (.new isDir value) else s.graph.pathMap x := congrFun hwrite x
  refine ⟨result, t, hok, ht, hwrite, ?_, fun q hq => ?_⟩
  · refine hs.linked.names_concat ht.linked horder hn fun m => ?_
    rw [hentry]
    by_cases hm : m = n
    · simp [hm]
    · simp [hm]
  · refine hs.linked.names_eq ht.linked horder fun m => ?_
    have hne : q ++ [m] ≠ p ++ [n] := fun h => hq (List.append_inj' h rfl).1
    rw [hentry, if_neg hne]

/-! ### What is restored so far -/

/-- The store shows the given paths of a tree, with the children of each directory in the order in
which they are given. -/
structure Restored (g : Graph) (paths : List (List String)) (t : Store) : Prop where
  sound : t.Sound
  pathMap : ∀ x, t.pathMap x = if x ∈ paths then g.pathMap x else none
  names : ∀ q, t.graph.names q = paths.filterMap (childOf q)

/-- A new store shows the root. -/
theorem restored_new {g : Graph} (hg : g.Linked) (config : Config) :
    Restored g [[]] { config := config } := by
  have ht : Sound { config := config } := sound_new config
  have habsent (x : List String) (hx : x ≠ []) : Graph.rooted.pathMap x = none := by
    obtain ⟨m, rest, rfl⟩ := List.exists_cons_of_ne_nil hx
    have hm : Graph.rooted.pathMap ([] ++ [m]) = none := by
      by_contra h
      have hmem := ht.linked.mem_names_iff.mpr h
      rw [Graph.names_rooted] at hmem
      cases hmem
    exact ht.closed.none_of_prefix (p := [m]) ⟨rest, rfl⟩ hm
  refine ⟨ht, fun x => ?_, fun q => ?_⟩
  · show Graph.rooted.pathMap x = _
    by_cases hx : x = []
    · rw [hx, if_pos List.mem_cons_self, hg.closed_pathMap.root]
      exact ht.closed.root
    · simpa [hx] using habsent x hx
  · show Graph.rooted.names q = _
    have hnone : childOf q [] = none := Graph.childOf_eq_none (by simp)
    simp [Graph.names_rooted, hnone]

section Restored

variable {g : Graph} {paths : List (List String)} {t : Store}

/-- The size of a store is the number of the paths below the root. -/
theorem Sound.size_of_paths (ht : t.Sound) (hnodup : paths.Nodup)
    (h : ∀ x, x ∈ paths ↔ t.pathMap x ≠ none) : size t = .ok (paths.length - 1) t := by
  have hperm : (t.graph.below []).Perm paths := by
    refine (List.perm_ext_iff_of_nodup (ht.linked.nodup_below []) hnodup).mpr fun x => ?_
    rw [ht.linked.mem_below, h]
    exact and_iff_right List.nil_prefix
  have hlength : (t.graph.view rootId).subtree.length = paths.length := by
    rw [← hperm.length_eq, Graph.below, List.length_map, Graph.descend,
      t.graph.snapshot?_root, Option.elim_some]
  rw [ht.size_ok, hlength]

theorem Restored.size_eq (h : Restored g paths t) (hnodup : paths.Nodup)
    (hthere : ∀ x ∈ paths, g.pathMap x ≠ none) : size t = .ok (paths.length - 1) t := by
  refine h.sound.size_of_paths hnodup fun x => ?_
  rw [h.pathMap]
  constructor
  · intro hx
    rw [if_pos hx]
    exact hthere x hx
  · intro hx
    by_contra hnot
    exact hx (if_neg hnot)

/-- The next path is restored: it was empty, and its directory is there. -/
theorem Restored.create (h : Restored g paths t) (hg : g.Linked) {n : Node} {p : List String}
    {m : String} (hn : g.snapshot? (p ++ [m]) = some n) (hp : p ∈ paths)
    (hnew : p ++ [m] ∉ paths) (messages : Messages) :
    ∃ result t', perform messages n.creation t = .ok result t' ∧ t.pathMap (p ++ [m]) = none ∧
      t'.pathMap = t.pathMap.write (p ++ [m]) (.new n.isDir n.value) ∧
      Restored g (paths ++ [p ++ [m]]) t' := by
  have hentry := hg.pathMap_of_snapshot? hn
  have hdir : t.pathMap p = some .dir := by
    rw [h.pathMap, if_pos hp]
    exact hg.closed_pathMap.up p m (by simp [hentry])
  have habsent : t.pathMap (p ++ [m]) = none := by rw [h.pathMap, if_neg hnew]
  obtain ⟨result, t', hok, ht', hmap, hnames, hothers⟩ :=
    h.sound.create_child messages (hg.isPath_of_snapshot? hn) hdir habsent n.isDir n.value
  refine ⟨result, t', ?_, habsent, hmap, ht', fun x => ?_, fun q => ?_⟩
  · rw [Node.creation, hg.key_of_snapshot? hn]
    exact hok
  · rw [hmap, PathMap.write]
    by_cases hx : x = p ++ [m]
    · simp [hx, hentry]
    · simp [hx, h.pathMap]
  · rw [List.filterMap_append]
    by_cases hq : q = p
    · have hlast : [p ++ [m]].filterMap (childOf p) = [m] := by simp [Graph.childOf_concat]
      rw [hq, hnames, h.names, hlast]
    · have hlast : [p ++ [m]].filterMap (childOf q) = [] := by
        simp [Graph.childOf_concat, Ne.symm hq]
      rw [hothers q hq, h.names, hlast, List.append_nil]

end Restored

/-! ### The whole dump -/

section Dump

variable {s : Store} (hs : s.Sound)
include hs

theorem Sound.subtree_root : ∃ root, s.graph.snapshot? [] = some root ∧ root.key = "/" ∧
    (s.graph.view rootId).subtree = root :: s.dump := by
  have hroot := s.graph.snapshot?_root
  refine ⟨s.graph.view rootId, hroot, hs.linked.key_of_snapshot? hroot, ?_⟩
  unfold dump
  cases s.graph.view rootId <;> rfl

/-- Where a walk through the tree comes to, the root first. -/
theorem Sound.below_root :
    s.graph.below [] = [] :: s.dump.map fun n => Path.split n.key := by
  obtain ⟨root, hroot, hkey, hsubtree⟩ := hs.subtree_root
  have hview : s.graph.view rootId = root :=
    Option.some.inj (s.graph.snapshot?_root.symm.trans hroot)
  rw [Graph.below, Graph.descend, hroot, Option.elim_some, ← hview, hsubtree, List.map_cons, hkey]
  rfl

/-- After a part of the dump the next node may be created. -/
theorem Sound.next_path {before after : List Node} {n : Node}
    (h : s.dump = before ++ n :: after) :
    ∃ p m, Path.split n.key = p ++ [m] ∧ s.graph.snapshot? (p ++ [m]) = some n ∧
      p ∈ [] :: before.map (fun n => Path.split n.key) ∧
      p ++ [m] ∉ [] :: before.map (fun n => Path.split n.key) := by
  have hbelow := hs.below_root
  rw [h, List.map_append, List.map_cons, ← List.cons_append] at hbelow
  have hpair := hs.linked.pairwise_below []
  rw [hbelow, List.pairwise_append] at hpair
  obtain ⟨-, hrest, hearlier⟩ := hpair
  have hlater := (List.pairwise_cons.mp hrest).1
  have hmem : n ∈ s.graph.descend [] := by
    obtain ⟨root, hroot, -, hsubtree⟩ := hs.subtree_root
    rw [Graph.descend, s.graph.snapshot?_root, Option.elim_some,
      hsubtree, h]
    simp
  have hsnap := hs.linked.snapshot?_of_mem_descend hmem
  rcases List.eq_nil_or_concat' (Path.split n.key) with hnil | ⟨p, m, hpath⟩
  · -- the root stands before all others
    have hfirst := hearlier [] List.mem_cons_self (Path.split n.key) List.mem_cons_self
    rw [hnil] at hfirst
    exact absurd List.prefix_rfl hfirst
  rw [hpath] at hsnap hlater hearlier hbelow
  refine ⟨p, m, hpath, hsnap, ?_, fun hin => ?_⟩
  · have hentry := hs.linked.pathMap_of_snapshot? hsnap
    have hdir := hs.linked.closed_pathMap.up p m (by simp [hentry])
    have hp : p ∈ s.graph.below [] := hs.linked.mem_below.mpr ⟨List.nil_prefix, by simp [hdir]⟩
    rw [hbelow] at hp
    rcases List.mem_append.mp hp with hp | hp
    · exact hp
    · rcases List.mem_cons.mp hp with hp | hp
      · exact absurd (congrArg List.length hp) (by simp)
      · exact absurd (List.prefix_append p [m]) (hlater p hp)
  · exact hearlier _ hin _ List.mem_cons_self List.prefix_rfl

theorem Sound.restored_prefix (messages : Messages) (config : Config) {before after : List Node}
    (h : s.dump = before ++ after) :
    Restored s.graph ([] :: before.map fun n => Path.split n.key)
      (restore messages before { config := config }) := by
  induction before using List.reverseRecOn generalizing after with
  | nil => exact restored_new hs.linked config
  | append_singleton before n ih =>
    rw [List.append_assoc, List.singleton_append] at h
    obtain ⟨p, m, hpath, hsnap, hp, hnew⟩ := hs.next_path h
    obtain ⟨result, t', hok, -, -, ht'⟩ := (ih h).create hs.linked hsnap hp hnew messages
    rw [restore, List.foldl_append, List.foldl_cons, List.foldl_nil, ← restore, run, hok,
      List.map_append, List.map_cons, hpath]
    exact ht'

theorem Sound.size_restored (messages : Messages) (config : Config) {before after : List Node}
    (h : s.dump = before ++ after) :
    size (restore messages before { config := config }) =
      .ok before.length (restore messages before { config := config }) := by
  have hbelow := hs.below_root
  rw [h, List.map_append, ← List.cons_append] at hbelow
  have hnodup := hs.linked.nodup_below []
  rw [hbelow, List.nodup_append] at hnodup
  have hsize := (hs.restored_prefix messages config h).size_eq hnodup.1 fun x hx => by
    have hmem : x ∈ s.graph.below [] := by
      rw [hbelow]
      exact List.mem_append_left _ hx
    exact (hs.linked.mem_below.mp hmem).2
  simpa using hsize

/-- The tree is restored as a whole. -/
theorem Sound.view_restored (messages : Messages) (config : Config) :
    (restore messages s.dump { config := config }).graph.snapshot? [] = s.graph.snapshot? [] := by
  have ht := hs.restored_prefix messages config (List.append_nil s.dump).symm
  have hbelow := hs.below_root
  refine hs.linked.snapshot?_congr ht.sound.linked [] (fun x => ?_) fun q => ?_
  · rw [List.nil_append]
    show pathMap _ x = _
    rw [ht.pathMap]
    by_cases hx : x ∈ s.graph.below []
    · rw [if_pos (hbelow ▸ hx)]
    · have hnone : s.graph.pathMap x = none := by
        by_contra h
        exact hx (hs.linked.mem_below.mpr ⟨List.nil_prefix, h⟩)
      rw [hnone, ite_self]
  · have hroot : s.graph.pathMap [] ≠ none := by simp [hs.linked.closed_pathMap.root]
    rw [List.nil_append, ht.names, ← hbelow, hs.linked.children_below hroot,
      if_pos List.nil_prefix]

end Dump

/-- Creating the nodes of a dump one by one in a new store: each creation succeeds and brings one
node, at a place that was empty, and in the end a reader of the whole tree finds in both stores the
same nodes in the same order. -/
theorem Reachable.dump_restores {s : Store} (hs : s.Reachable) (messages : Messages)
    (config : Config) :
    (∃ root, (s.graph.view rootId).subtree = root :: s.dump ∧ root.key = "/") ∧
    (∀ before n after, s.dump = before ++ n :: after →
      ∃ result, perform messages (.create n.key n.isDir n.value)
          (restore messages before { config := config }) =
        .ok result (restore messages (before ++ [n]) { config := config }) ∧
      (restore messages before { config := config }).pathMap (Path.split n.key) = none ∧
      (restore messages (before ++ [n]) { config := config }).pathMap =
        (restore messages before { config := config }).pathMap.write (Path.split n.key)
          (.new n.isDir n.value) ∧
      size (restore messages before { config := config }) =
        .ok before.length (restore messages before { config := config }) ∧
      size (restore messages (before ++ [n]) { config := config }) =
        .ok (before.length + 1) (restore messages (before ++ [n]) { config := config })) ∧
    ∃ result s' t',
      perform messages (.get "/" true (some false)) s = .ok result s' ∧
      perform messages (.get "/" true (some false))
        (restore messages s.dump { config := config }) = .ok result t' := by
  have hsound := hs.sound
  refine ⟨?_, fun before n after h => ?_, ?_⟩
  · obtain ⟨root, -, hkey, hsubtree⟩ := hsound.subtree_root
    exact ⟨root, hsubtree, hkey⟩
  · obtain ⟨p, m, hpath, hsnap, hp, hnew⟩ := hsound.next_path h
    obtain ⟨result, t', hok, habsent, hmap, -⟩ :=
      (hsound.restored_prefix messages config h).create hsound.linked hsnap hp hnew messages
    have hlast : restore messages (before ++ [n]) { config := config } = t' := by
      rw [restore, List.foldl_append, List.foldl_cons, List.foldl_nil, ← restore, run, hok]
    have hnext : s.dump = (before ++ [n]) ++ after := by simp [h]
    rw [hpath, hlast]
    refine ⟨result, hok, habsent, hmap, hsound.size_restored messages config h, ?_⟩
    simpa [hlast] using hsound.size_restored messages config hnext
  · have ht := (hsound.restored_prefix messages config (List.append_nil s.dump).symm).sound
    have hread {u : Store} (hu : u.Sound) : ∃ result u',
        perform messages (.get "/" true (some false)) u = .ok result u' := by
      refine (hu.perform_ok_iff messages _).mpr ?_
      rw [Request.refusal, hu.closed.absence_eq_none_iff]
      exact fun h => by cases hu.closed.root.symm.trans h
    obtain ⟨result, s', hok⟩ := hread hsound
    obtain ⟨result', t', hok'⟩ := hread ht
    have hanswer := hsound.perform_answer hok
    have hanswer' := ht.perform_answer hok'
    have hroot : (Request.get "/" true (some false)).path = [] := rfl
    rw [hroot] at hanswer
    rw [hroot, hsound.view_restored] at hanswer'
    obtain rfl : result' = result := Option.some.inj (hanswer'.symm.trans hanswer)
    exact ⟨result', s', t', hok, hok'⟩

/-- An empty directory, a leaf without a value and one with the empty value, in an order of their
own. -/
theorem dump_restores_kinds :
    ∃ s : Store, s.Reachable ∧ s.dump.map Node.key = ["/b", "/b/y", "/b/x", "/a"] ∧
      ∃ result s' t',
        perform Messages.empty (.get "/" true (some false)) s = .ok result s' ∧
        perform Messages.empty (.get "/" true (some false))
          (restore Messages.empty s.dump {}) = .ok result t' := by
  have hs := Reachable.request Messages.empty (.create "/a" true none)
    (.request Messages.empty (.set "b/x" false (some ""))
      (.request Messages.empty (.create "/b/y" false none) (.new {})))
  obtain ⟨-, -, result, s', t', hok, hok'⟩ := hs.dump_restores Messages.empty {}
  exact ⟨_, hs, by decide +kernel, result, s', t', hok, hok'⟩

end Store

end TreeStore
