import TreeStore.Proofs.Path.Backward
import TreeStore.Proofs.Store.Reachable

/-!
# How a key is resolved

In a tree the segments of a key are all taken, or they lead to a directory that lacks the next one,
or to a leaf that is not the last of them; which of the three it is, and where the way ends, is
settled by the tree (`IsTree.one_end`).  The walk tells exactly that: the node and its
parent, the directory and the names that it lacks, or the leaf with the directory that holds it and
the names from the leaf's own on (`IsTree.resolve_decides`).
-/

namespace TreeStore.Graph

/-! ### Where a way ends -/

/-- Every place on the way is taken. -/
def Leads (g : Graph) (root : Nat) (s : List String) : Prop :=
  ∀ q, q <+: s → ∃ j, g.at? root q = some j

/-- The way ends after `i` names: there is a node, and there is none one name further. -/
structure EndsAt (g : Graph) (root : Nat) (s : List String) (i : Nat) : Prop where
  lt : i < s.length
  node : ∃ j, g.at? root (s.take i) = some j
  nothing : g.at? root (s.take (i + 1)) = none

/-- After `i` names the way is at a directory that has no child of the next name. -/
def LacksAt (g : Graph) (root : Nat) (s : List String) (i : Nat) : Prop :=
  ∃ n d, s[i]? = some n ∧ g.at? root (s.take i) = some d ∧ (g.vertex d).isDir = true ∧
    g.child? d n = none

/-- After `i` names, and before the last one, the way is at a leaf. -/
def LeafAt (g : Graph) (root : Nat) (s : List String) (i : Nat) : Prop :=
  0 < i ∧ i < s.length ∧ ∃ l, g.at? root (s.take i) = some l ∧ (g.vertex l).isDir = false

section Ways

variable {g : Graph} {root : Nat} {s : List String} {i j : Nat}

theorem leads_iff : g.Leads root s ↔ ∃ j, g.at? root s = some j := by
  constructor
  · exact fun h => h s List.prefix_rfl
  · rintro ⟨j, hj⟩ q hq
    exact exists_at?_of_prefix hq hj

theorem EndsAt.not_leads (h : g.EndsAt root s i) : ¬ g.Leads root s := by
  intro hleads
  obtain ⟨j, hj⟩ := hleads _ (List.take_prefix (i + 1) s)
  rw [h.nothing] at hj
  cases hj

theorem EndsAt.unique (hi : g.EndsAt root s i) (hj : g.EndsAt root s j) : i = j := by
  have hle {i j : Nat} (hi : g.EndsAt root s i) (hj : g.EndsAt root s j) : j ≤ i := by
    by_contra hlt
    obtain ⟨c, hc⟩ := hj.node
    have hpre : s.take (i + 1) <+: s.take j := List.take_prefix_take_left (by omega)
    obtain ⟨d, hd⟩ := exists_at?_of_prefix hpre hc
    rw [hi.nothing] at hd
    cases hd
  exact Nat.le_antisymm (hle hj hi) (hle hi hj)

theorem at?_take_succ {c : Nat} {n : String} (hn : s[i]? = some n)
    (hc : g.at? root (s.take i) = some c) :
    g.at? root (s.take (i + 1)) = g.child? c n := by
  rw [List.take_add_one, hn, Option.toList_some, at?_concat, hc, Option.bind_some]

theorem LacksAt.endsAt (h : g.LacksAt root s i) : g.EndsAt root s i := by
  obtain ⟨n, d, hn, hd, -, hchild⟩ := h
  refine ⟨(List.getElem?_eq_some_iff.mp hn).1, ⟨d, hd⟩, ?_⟩
  rw [at?_take_succ hn hd, hchild]

theorem LeafAt.endsAt (h : g.LeafAt root s i) : g.EndsAt root s i := by
  obtain ⟨-, hlt, l, hl, hleaf⟩ := h
  refine ⟨hlt, ⟨l, hl⟩, ?_⟩
  rw [at?_take_succ (List.getElem?_eq_getElem hlt) hl, child?_of_leaf hleaf]

theorem LacksAt.not_leafAt (h : g.LacksAt root s i) : ¬ g.LeafAt root s j := by
  intro hleaf
  obtain rfl := h.endsAt.unique hleaf.endsAt
  obtain ⟨n, d, -, hd, hdir, -⟩ := h
  obtain ⟨-, -, l, hl, hfile⟩ := hleaf
  rw [hd, Option.some.injEq] at hl
  rw [← hl, hdir] at hfile
  cases hfile

end Ways

section Tree

variable {g : Graph} {root : Nat} (hg : g.IsTree root)
include hg

theorem IsTree.isDir_root : (g.vertex root).isDir = true := by
  obtain ⟨v, hv, -, hdir, -⟩ := hg.atRoot
  rw [vertex_of_get? hv, hdir]

/-- A way that does not lead to its end stops at a directory or at a leaf. -/
theorem IsTree.exists_end (s : List String) :
    g.Leads root s ∨ (∃ i, g.LacksAt root s i) ∨ ∃ i, g.LeafAt root s i := by
  rcases walk_cases g none root s with ⟨j, hj, -⟩ | ⟨p, n, rest, d, rfl, hd, hdir, hc, -⟩ |
    ⟨p, n, rest, l, -, rfl, hl, hleaf, -⟩
  · exact Or.inl (leads_iff.mpr ⟨j, hj⟩)
  · refine Or.inr (Or.inl ⟨p.length, n, d, by simp, ?_, hdir, hc⟩)
    rw [List.take_left, hd]
  · refine Or.inr (Or.inr ⟨p.length, ?_, by simp, l, ?_, hleaf⟩)
    · -- the root is no leaf
      rw [List.length_pos_iff]
      rintro rfl
      rw [at?_nil, Option.some.injEq] at hl
      rw [← hl, hg.isDir_root] at hleaf
      cases hleaf
    · rw [List.take_left, hl]

/-- Of the three only one is the case, and the way ends in one place only. -/
theorem IsTree.one_end (s : List String) :
    (g.Leads root s ∧ (¬ ∃ i, g.LacksAt root s i) ∧ ¬ ∃ i, g.LeafAt root s i) ∨
    (¬ g.Leads root s ∧ (∃! i, g.LacksAt root s i) ∧ ¬ ∃ i, g.LeafAt root s i) ∨
    (¬ g.Leads root s ∧ (¬ ∃ i, g.LacksAt root s i) ∧ ∃! i, g.LeafAt root s i) := by
  rcases hg.exists_end s with h | ⟨i, h⟩ | ⟨i, h⟩
  · refine Or.inl ⟨h, ?_, ?_⟩
    · rintro ⟨i, hi⟩
      exact hi.endsAt.not_leads h
    · rintro ⟨i, hi⟩
      exact hi.endsAt.not_leads h
  · refine Or.inr (Or.inl ⟨h.endsAt.not_leads, ⟨i, h, fun j hj => hj.endsAt.unique h.endsAt⟩, ?_⟩)
    rintro ⟨j, hj⟩
    exact h.not_leafAt hj
  · refine Or.inr (Or.inr ⟨h.endsAt.not_leads, ?_, ⟨i, h, fun j hj => hj.endsAt.unique h.endsAt⟩⟩)
    rintro ⟨j, hj⟩
    exact hj.not_leafAt h

/-- The names from some place on, joined to the key of that place. -/
theorem IsTree.foldl_join_drop {s : List String} (hs : Path.IsPath s) {i d : Nat}
    (hd : g.at? root (s.take i) = some d) :
    (s.drop i).foldl Path.join (g.vertex d).key = Path.render s := by
  have hpath : Path.IsPath (s.take i ++ s.drop i) := by rwa [List.take_append_drop]
  rw [hg.key_of_at? hd, Path.foldl_join_render hpath, List.take_append_drop]

end Tree

/-! ### What the walk tells -/

section Walk

variable {g : Graph} {root : Nat} {s : List String} {i : Nat}

theorem walk_of_leads {j : Nat} (h : g.at? root s = some j) :
    g.walk none root s = .found j (g.vertex j).parent := by
  have hwalk := walk_append h none []
  rwa [List.append_nil, walk_nil] at hwalk

theorem walk_of_lacks {n : String} {d : Nat} (hn : s[i]? = some n)
    (hd : g.at? root (s.take i) = some d) (hdir : (g.vertex d).isDir = true)
    (hc : g.child? d n = none) : g.walk none root s = .missing d (s.drop i) := by
  obtain ⟨hlt, rfl⟩ := List.getElem?_eq_some_iff.mp hn
  have hwalk := walk_append hd none (s.drop i)
  rw [List.take_append_drop] at hwalk
  rw [hwalk, List.drop_eq_getElem_cons hlt, walk_absent hdir hc]

/-- At a leaf the walk has come by the name before, and gives that name back. -/
theorem walk_of_leaf {k l : Nat} (hlt : k + 1 < s.length)
    (hl : g.at? root (s.take (k + 1)) = some l) (hleaf : (g.vertex l).isDir = false) :
    g.walk none root s = .blocked l (g.vertex l).parent (s.drop k) := by
  have hk : k < s.length := by omega
  have hwalk := walk_append hl none (s.drop (k + 1))
  have hvia : (s.take (k + 1)).getLast? = some s[k] := by
    rw [List.take_succ_eq_append_getElem hk, List.getLast?_concat]
  rw [List.take_append_drop, hvia] at hwalk
  rw [hwalk, List.drop_eq_getElem_cons hk, List.drop_eq_getElem_cons hlt]
  simp [walk, hleaf]

end Walk

/-- Resolving a key reads the tree and changes nothing, and it tells which of three things holds:
every place on the way is taken; or, after a number of names that is unique, a directory lacks the
next one; or, after a number of names that is unique, there is a leaf before the last name.  In the
first case it gives the node and its parent, in the second the directory and all names from the
missing one on, in the third the leaf, the directory that holds it, and all names from the leaf's
own on; names that are given lead, joined to the key of the parent, to the place of the key. -/
theorem IsTree.resolve_decides {g : Graph} {root : Nat} (hg : g.IsTree root) (key : String)
    {s : List String} (hs : Path.split (Path.normalize key) = s) {r : Resolution Nat}
    (hr : g.resolve root key = r) :
    (∀ st : Store, Store.resolve key st = .ok (st.graph.resolve rootId key) st) ∧
    ((g.Leads root s ∧ (¬ ∃ i, g.LacksAt root s i) ∧ ¬ ∃ i, g.LeafAt root s i) ∨
      (¬ g.Leads root s ∧ (∃! i, g.LacksAt root s i) ∧ ¬ ∃ i, g.LeafAt root s i) ∨
      (¬ g.Leads root s ∧ (¬ ∃ i, g.LacksAt root s i) ∧ ∃! i, g.LeafAt root s i)) ∧
    (g.Leads root s → ∃ j, g.at? root s = some j ∧ r.node? = some j ∧
      (g.vertex j).key = Path.normalize key ∧ r.parent? = (g.vertex j).parent ∧
      r.parent? = (if s = [] then none else g.at? root s.dropLast) ∧ (r.parent? = none ↔ s = []) ∧
      r.names = [] ∧ r.blockedBy? = none) ∧
    (∀ i, g.LacksAt root s i → ∃ d, g.at? root (s.take i) = some d ∧ r.parent? = some d ∧
      r.names = s.drop i ∧ r.node? = none ∧ r.blockedBy? = none ∧
      r.names ≠ [] ∧ r.names.foldl Path.join (g.vertex d).key = Path.normalize key) ∧
    (∀ i, g.LeafAt root s i → ∃ l d, g.at? root (s.take i) = some l ∧ r.blockedBy? = some l ∧
      g.at? root (s.take (i - 1)) = some d ∧ (g.vertex d).isDir = true ∧ r.parent? = some d ∧
      r.names = s.drop (i - 1) ∧ r.node? = none ∧
      r.names ≠ [] ∧ r.names.foldl Path.join (g.vertex d).key = Path.normalize key) := by
  have hpath : Path.IsPath s := hs ▸ Path.isPath_split_normalize key
  have hrender : Path.render s = Path.normalize key := by rw [← hs, Path.render_split_normalize]
  have hwalk : g.walk none root s = r := by rw [← hr, resolve, hs]
  refine ⟨fun st => rfl, hg.one_end s, fun h => ?_, fun i h => ?_, fun i h => ?_⟩
  · obtain ⟨j, hj⟩ := leads_iff.mp h
    have hparent := hg.parent_of_at? hj
    obtain rfl := (walk_of_leads hj).symm.trans hwalk
    refine ⟨j, hj, rfl, by rw [hg.key_of_at? hj, hrender], rfl, hparent, ?_, rfl, rfl⟩
    show (g.vertex j).parent = none ↔ s = []
    rw [hparent]
    split_ifs with hnil
    · simp [hnil]
    · obtain ⟨d, hd⟩ := exists_at?_of_prefix s.dropLast_prefix hj
      simp [hd, hnil]
  · obtain ⟨n, d, hn, hd, hdir, hc⟩ := h
    obtain rfl := (walk_of_lacks hn hd hdir hc).symm.trans hwalk
    have hlt := (List.getElem?_eq_some_iff.mp hn).1
    refine ⟨d, hd, rfl, rfl, rfl, rfl, ?_, ?_⟩
    · simpa [Resolution.names] using hlt
    · rw [Resolution.names, hg.foldl_join_drop hpath hd, hrender]
  · obtain ⟨hpos, hlt, l, hl, hleaf⟩ := h
    obtain ⟨k, rfl⟩ := Nat.exists_eq_add_one.mpr hpos
    have hk : k < s.length := by omega
    have hl' := hl
    rw [List.take_succ_eq_append_getElem hk] at hl'
    obtain ⟨d, hd, hdir, hparent⟩ := hg.parent_concat hl'
    obtain rfl := (walk_of_leaf hlt hl hleaf).symm.trans hwalk
    refine ⟨l, d, hl, rfl, hd, hdir, hparent, rfl, rfl, ?_, ?_⟩
    · simpa [Resolution.names] using hk
    · rw [Resolution.names, hg.foldl_join_drop hpath hd, hrender]

/-- A leaf far above the place: all names from its own on are given. -/
theorem resolve_decides_leaf :
    ∃ st : Store, st.Reachable ∧ st.graph.LeafAt rootId ["a", "b", "c"] 1 ∧ ∃ l,
      (st.graph.resolve rootId "x/../a/b/c").blockedBy? = some l ∧
      (st.graph.resolve rootId "x/../a/b/c").parent? = some rootId ∧
      (st.graph.resolve rootId "x/../a/b/c").names = ["a", "b", "c"] := by
  have hst := Store.Reachable.request Messages.empty (.create "/a" false none) (.new {})
  have hsplit : Path.split (Path.normalize "x/../a/b/c") = ["a", "b", "c"] := by decide +kernel
  obtain ⟨st, hst, h⟩ : ∃ st : Store, st.Reachable ∧ st.graph.LeafAt rootId ["a", "b", "c"] 1 :=
    ⟨_, hst, by decide, by decide, 1, rfl, rfl⟩
  obtain ⟨-, -, -, -, hleaf⟩ := hst.sound.linked.isTree.resolve_decides "x/../a/b/c" hsplit rfl
  obtain ⟨l, d, -, hl, hd, -, hparent, hnames, -⟩ := hleaf 1 h
  obtain rfl : rootId = d := Option.some.inj hd
  exact ⟨st, hst, h, l, hl, hparent, hnames⟩

end TreeStore.Graph
