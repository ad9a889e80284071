import TreeStore.Proofs.Graph.Traversal
import TreeStore.Proofs.Store.Snapshots

/-!
# What a read shows

A read of a place shows all that exists from there down, or with one level only what exists
directly below it, each node once and as it is now (`Reachable.reads_exact`): its nodes are a walk
through the tree, which comes to every path that the path map has there (`Sound.lists_subtree`), and
a copy loses and repeats nothing.  A level of a sorted read is the same level of the unsorted one in
the order of the names.
-/

namespace TreeStore.Store

open TreeStore.Path

/-- A node lives at the key: the store itself says so. -/
def Has (s : Store) (key : String) : Prop := exists? key s = .ok true s

/-- The nodes are those at certain keys: no others, each of them once, and each with the kind and
the value that it has in the store. -/
structure Lists (s : Store) (ns : List Node) (keys : String → Prop) : Prop where
  mem_iff : ∀ q, q ∈ ns.map Node.key ↔ keys q
  nodup : (ns.map Node.key).Nodup
  current : ∀ n ∈ ns, s.pathMap (split n.key) = some (.new n.isDir n.value)

/-- Nodes that show the same of themselves, in any order. -/
theorem Lists.congr {s : Store} {ns ms : List Node} {keys : String → Prop} (h : s.Lists ns keys)
    (hperm : (ms.map Node.label).Perm (ns.map Node.label)) : s.Lists ms keys := by
  have hkeys : (ms.map Node.key).Perm (ns.map Node.key) := by
    have hfst := hperm.map Prod.fst
    rw [List.map_map, List.map_map] at hfst
    exact hfst
  refine ⟨fun q => hkeys.mem_iff.trans (h.mem_iff q), hkeys.nodup_iff.mpr h.nodup, fun m hm => ?_⟩
  obtain ⟨n, hn, hlabel⟩ := List.mem_map.mp (hperm.subset (List.mem_map_of_mem hm))
  simp only [Node.label, Prod.mk.injEq] at hlabel
  rw [← hlabel.1, ← hlabel.2.1, ← hlabel.2.2]
  exact h.current n hn

section Sound

variable {s : Store} (hs : s.Sound)
include hs

theorem Sound.has_iff {q : String} : s.Has q ↔ s.pathMap (split (normalize q)) ≠ none := by
  unfold Has
  rw [hs.exists?_ok q]
  cases s.pathMap (split (normalize q)) <;> simp

theorem Sound.has_render_iff {p : List String} (hp : IsPath p) :
    s.Has (render p) ↔ s.pathMap p ≠ none := by
  rw [hs.has_iff, normalize_render hp, split_render hp]

/-! ### A snapshot -/

theorem Sound.isPath_of_present {p : List String} (h : s.pathMap p ≠ none) : IsPath p := by
  obtain ⟨n, hn⟩ := Graph.exists_snapshot?_iff.mpr h
  exact hs.linked.isPath_of_snapshot? hn

/-- Everything that is found in a snapshot is the snapshot at its own place. -/
theorem Sound.snapshot?_of_mem {p : List String} {n d : Node} (hn : s.graph.snapshot? p = some n)
    (hd : d ∈ n.subtree) : s.graph.snapshot? (split d.key) = some d := by
  refine hs.linked.snapshot?_of_mem_descend (p := p) ?_
  rwa [Graph.descend, hn]

/-- The nodes in a snapshot are what exists from its place down. -/
theorem Sound.mem_keys_subtree {p : List String} {n : Node} (hn : s.graph.snapshot? p = some n)
    (q : String) :
    q ∈ n.subtree.map Node.key ↔ normalize q = q ∧ p <+: split q ∧ s.Has q := by
  have hbelow := Graph.below_of_snapshot? hn
  have hkey {d : Node} (hd : d ∈ n.subtree) : render (split d.key) = d.key :=
    (hs.linked.key_of_snapshot? (hs.snapshot?_of_mem hn hd)).symm
  constructor
  · intro hq
    obtain ⟨d, hd, rfl⟩ := List.mem_map.mp hq
    have hmem : split d.key ∈ s.graph.below p := hbelow ▸ List.mem_map_of_mem hq
    obtain ⟨hpre, hthere⟩ := hs.linked.mem_below.mp hmem
    have hpath := hs.isPath_of_present hthere
    have hcanonical := normalize_render hpath
    have hhas := (hs.has_render_iff hpath).mpr hthere
    rw [hkey hd] at hcanonical hhas
    exact ⟨hcanonical, hpre, hhas⟩
  · rintro ⟨hcanonical, hpre, hhas⟩
    rw [hs.has_iff, hcanonical] at hhas
    have hmem : split q ∈ (n.subtree.map Node.key).map split :=
      hbelow ▸ hs.linked.mem_below.mpr ⟨hpre, hhas⟩
    obtain ⟨q', hq', hsplit⟩ := List.mem_map.mp hmem
    obtain ⟨d, hd, rfl⟩ := List.mem_map.mp hq'
    -- two canonical keys with the same names
    have hsame : d.key = q := by
      rw [← hkey hd, hsplit, ← hcanonical, render_split_normalize, hcanonical]
    exact hsame ▸ hq'

/-- The children in a snapshot are what exists directly below its place. -/
theorem Sound.mem_keys_children {p : List String} {n : Node} (hn : s.graph.snapshot? p = some n)
    (q : String) :
    q ∈ n.children.map Node.key ↔ ∃ x, IsSegment x ∧ q = join (render p) x ∧ s.Has q := by
  have hp := hs.linked.isPath_of_snapshot? hn
  rw [hs.linked.children_of_snapshot? hn]
  constructor
  · intro hq
    obtain ⟨c, hc, rfl⟩ := List.mem_map.mp hq
    obtain ⟨x, hx, hsnap⟩ := List.mem_filterMap.mp hc
    have hthere := hs.linked.mem_names_iff.mp hx
    have hpath := hs.isPath_of_present hthere
    rw [hs.linked.key_of_snapshot? hsnap]
    exact ⟨x, isPath_singleton.mp (isPath_append.mp hpath).2, (join_render hp x).symm,
      (hs.has_render_iff hpath).mpr hthere⟩
  · rintro ⟨x, hx, rfl, hhas⟩
    have hpath : IsPath (p ++ [x]) := isPath_append.mpr ⟨hp, isPath_singleton.mpr hx⟩
    rw [join_render hp] at hhas ⊢
    have hthere := (hs.has_render_iff hpath).mp hhas
    obtain ⟨c, hc⟩ := Graph.exists_snapshot?_iff.mpr hthere
    refine List.mem_map.mpr ⟨c, List.mem_filterMap.mpr ⟨x, ?_, hc⟩, hs.linked.key_of_snapshot? hc⟩
    exact hs.linked.mem_names_iff.mpr hthere

theorem Sound.lists_subtree {p : List String} {n : Node} (hn : s.graph.snapshot? p = some n) :
    s.Lists n.subtree fun q => normalize q = q ∧ p <+: split q ∧ s.Has q := by
  refine ⟨hs.mem_keys_subtree hn, ?_, fun d hd => ?_⟩
  · have hnodup := hs.linked.nodup_below p
    rw [← Graph.below_of_snapshot? hn] at hnodup
    exact hnodup.of_map
  · exact hs.linked.pathMap_of_snapshot? (hs.snapshot?_of_mem hn hd)

theorem Sound.lists_children {p : List String} {n : Node} (hn : s.graph.snapshot? p = some n) :
    s.Lists (n :: n.children) fun q =>
      q = render p ∨ ∃ x, IsSegment x ∧ q = join (render p) x ∧ s.Has q := by
  have hall := hs.lists_subtree hn
  refine ⟨fun q => ?_, hall.nodup.sublist (n.cons_children_sublist.map Node.key), fun d hd =>
    hall.current d (n.cons_children_sublist.subset hd)⟩
  rw [List.map_cons, List.mem_cons, hs.linked.key_of_snapshot? hn, hs.mem_keys_children hn]

/-! ### Copies of a snapshot -/

theorem Sound.lists_copy {p : List String} {n : Node} (hn : s.graph.snapshot? p = some n)
    (sorted : Bool) : s.Lists (n.clone none sorted).subtree fun q =>
      normalize q = q ∧ p <+: split q ∧ s.Has q := by
  have hperm := (n.subtree_clone_perm sorted).map Node.label
  rw [Node.map_label_clone] at hperm
  exact (hs.lists_subtree hn).congr hperm

theorem Sound.lists_level {p : List String} {n : Node} (hn : s.graph.snapshot? p = some n)
    (sorted : Bool) : s.Lists (n.clone (some 1) sorted).subtree fun q =>
      q = render p ∨ ∃ x, IsSegment x ∧ q = join (render p) x ∧ s.Has q := by
  refine (hs.lists_children hn).congr ?_
  rw [Node.subtree_clone_one, List.map_cons, List.map_cons, Node.label_clone, Node.map_label_clone]
  exact ((n.listing_perm sorted).map Node.label).cons n.label

/-- Every level of a sorted copy has its names in increasing order, and they are those of a level of
the unsorted copy. -/
theorem Sound.sorted_level {p : List String} {n d : Node} (hn : s.graph.snapshot? p = some n)
    {depth : Node.Depth} (hd : d ∈ (n.clone depth true).subtree) :
    (d.children.map Node.name).Pairwise (· < ·) ∧
      ∃ e ∈ (n.clone depth false).subtree, e.key = d.key ∧
        (d.children.map Node.key).Perm (e.children.map Node.key) := by
  obtain ⟨m, hm, left, rfl, hother⟩ := Node.mem_subtree_clone hd
  have hnames : (m.children.map Node.name).Nodup := by
    rw [hs.linked.names_of_snapshot? (hs.snapshot?_of_mem hn hm)]
    exact hs.linked.nodup_names _
  refine ⟨?_, m.clone left false, hother false, ?_, ?_⟩
  · rw [Node.children_clone]
    split_ifs
    · rw [Node.map_name_clone]
      exact Node.pairwise_lt_sortByName hnames
    · exact .nil
  · rw [Node.key_clone, Node.key_clone]
  · rw [Node.children_clone, Node.children_clone]
    split_ifs
    · rw [Node.map_key_clone, Node.map_key_clone]
      exact ((m.listing_perm true).trans (m.listing_perm false).symm).map Node.key
    · exact .refl _

end Sound

/-- A read of everything shows the nodes at the canonical keys that exist from the place of the key
down; a read of one level shows the node and, without children, what exists directly below it, and
is the read of everything cut at that level.  Where the order of names is asked for, or configured
and not declined, every level is in strictly increasing order of the names and holds the same nodes
as that level of the unsorted read. -/
theorem Reachable.reads_exact {s : Store} (hs : s.Reachable) {key : String} (hkey : s.Has key)
    (sorted : Option Bool) :
    ∃ whole level, s.Reads key true sorted whole ∧ s.Reads key false sorted level ∧
      (whole.key = normalize key ∧ s.Lists whole.subtree fun q =>
        normalize q = q ∧ split (normalize key) <+: split q ∧ s.Has q) ∧
      (level.key = normalize key ∧ (∀ c ∈ level.children, c.children = []) ∧
        s.Lists level.subtree fun q => q = normalize key ∨
          ∃ x, IsSegment x ∧ q = join (normalize key) x ∧ s.Has q) ∧
      level = whole.clone (some 1) false ∧
      (sorted.getD s.config.sortedListing.truthy = true →
        ∀ recursive, ∃ n u, s.Reads key recursive sorted n ∧ s.Reads key recursive (some false) u ∧
          ∀ d ∈ n.subtree, (d.children.map Node.name).Pairwise (· < ·) ∧
            ∃ e ∈ u.subtree, e.key = d.key ∧
              (d.children.map Node.key).Perm (e.children.map Node.key)) := by
  have hsound := hs.sound
  obtain ⟨n, hn⟩ := Graph.exists_snapshot?_iff.mpr (hsound.has_iff.mp hkey)
  have hnkey : n.key = normalize key := by
    rw [hsound.linked.key_of_snapshot? hn, render_split_normalize]
  have hlevel := hsound.lists_level hn (sorted.getD s.sortsListings)
  rw [render_split_normalize] at hlevel
  refine ⟨_, _, hsound.reads hn true sorted, hsound.reads hn false sorted,
    ⟨by rw [Node.key_clone, hnkey], hsound.lists_copy hn _⟩,
    ⟨by rw [Node.key_clone, hnkey], fun c => Node.children_of_mem_clone_one, hlevel⟩,
    (Node.clone_clone ..).symm, fun hsorted recursive => ?_⟩
  refine ⟨_, _, hsound.reads hn recursive sorted, hsound.reads hn recursive (some false), ?_⟩
  rw [show sorted.getD s.sortsListings = true from hsorted]
  exact fun d hd => hsound.sorted_level hn hd

/-- A key that is not canonical, in a store with another branch. -/
theorem reads_exact_branch :
    ∃ s : Store, s.Reachable ∧ s.Has "x/../b" ∧ ∃ whole,
      s.Reads "x/../b" true (some true) whole ∧ "/b/x" ∈ whole.subtree.map Node.key ∧
        "/a" ∉ whole.subtree.map Node.key := by
  obtain ⟨s, hs, hb, hx⟩ : ∃ s : Store, s.Reachable ∧
      s.pathMap ["b"] = some .dir ∧ s.pathMap ["b", "x"] = some (.leaf none) :=
    ⟨_, .request Messages.empty (.create "/a" true none)
      (.request Messages.empty (.create "/b/x" false none) (.new {})), rfl, rfl⟩
  have hat : Path.split (Path.normalize "x/../b") = ["b"] := by decide +kernel
  have hat' : Path.split (Path.normalize "/b/x") = ["b", "x"] := by decide +kernel
  have hkey : s.Has "x/../b" := hs.sound.has_iff.mpr (by simp [hat, hb])
  have hkey' : s.Has "/b/x" := hs.sound.has_iff.mpr (by simp [hat', hx])
  obtain ⟨whole, -, hreads, -, ⟨-, hlists⟩, -⟩ := hs.reads_exact hkey (some true)
  refine ⟨s, hs, hkey, whole, hreads, (hlists.mem_iff "/b/x").mpr ⟨?_, ?_, hkey'⟩, fun h => ?_⟩
  · decide +kernel
  · decide +kernel
  · exact absurd ((hlists.mem_iff "/a").mp h).2.1 (by decide +kernel)

end TreeStore.Store
