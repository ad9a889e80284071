import Mathlib.Data.Finset.Card
import TreeStore.Proofs.Graph.Acyclic
import TreeStore.Proofs.Graph.PathMap

/-!
# The tree in a linked graph

`snapshot? p` is the copy of the node at a path, with all that is below it.  The graph has more
nodes than any path has names (`Linked.length_lt_of_at?`), so unfolding a node of the tree never
runs out of depth, and a snapshot is made of the snapshots of the children: `Linked.snapshot?_eq`.

So a snapshot is determined by what stands at each path and by the order of siblings
(`Linked.snapshot?_congr`), and its sorted copy by what stands at each path alone
(`Linked.sorted_congr`).
-/

namespace TreeStore.Graph

/-- The copy of the node at a path, with all that is below it. -/
def snapshot? (g : Graph) (p : List String) : Option Node :=
  (g.at? rootId p).map fun i => (g.view i).clone none false

theorem snapshot?_of_at? {g : Graph} {p : List String} {i : Nat} (h : g.at? rootId p = some i) :
    g.snapshot? p = some (g.view i) := by
  rw [snapshot?, h, Option.map_some, Node.clone_whole]

theorem snapshot?_root (g : Graph) : g.snapshot? [] = some (g.view rootId) :=
  snapshot?_of_at? (at?_nil g rootId)

theorem snapshot?_eq_none_iff {g : Graph} {p : List String} :
    g.snapshot? p = none ↔ g.pathMap p = none := by
  rw [snapshot?, Option.map_eq_none_iff, pathMap_eq_none_iff]

theorem exists_snapshot?_iff {g : Graph} {p : List String} :
    (∃ n, g.snapshot? p = some n) ↔ g.pathMap p ≠ none := by
  rw [← Option.ne_none_iff_exists', ne_eq, snapshot?_eq_none_iff]

section Linked

variable {g : Graph} (hg : Linked g)
include hg

/-! ### Unfolding is never cut short -/

/-- The nodes along a path are different ones. -/
theorem Linked.length_lt_of_at? {p : List String} {i : Nat} (h : g.at? rootId p = some i) :
    p.length < g.vertices.length := by
  -- one node for each prefix of the path, and different ones for different lengths
  have hway (k : Nat) : ∃ j, g.at? rootId (p.take k) = some j :=
    exists_at?_of_prefix (List.take_prefix k p) h
  choose f hf using hway
  have hlt (k : Nat) : f k < g.vertices.length :=
    (List.getElem?_eq_some_iff.mp (hg.get?_of_at? (hf k))).1
  have hcard : (Finset.range (p.length + 1)).card ≤ (Finset.range g.vertices.length).card := by
    refine Finset.card_le_card_of_injOn f (fun k _ => by simpa using hlt k) fun k hk l hl hkl => ?_
    simp only [Finset.coe_range, Set.mem_Iio] at hk hl
    have htake := congrArg List.length (hg.at?_inj (hf k) (hkl ▸ hf l))
    rw [List.length_take, List.length_take] at htake
    omega
  rw [Finset.card_range, Finset.card_range] at hcard
  exact hcard

theorem Linked.at?_child {p : List String} {i : Nat} (h : g.at? rootId p = some i)
    {c : String × Nat} (hc : c ∈ (g.vertex i).children) :
    g.at? rootId (p ++ [c.1]) = some c.2 := by
  rw [at?_concat, h, Option.bind_some]
  exact hg.child?_eq_some_iff.mpr ⟨_, hg.get?_of_at? h, hc⟩

/-- A node at a path has no more below it than the graph has nodes beyond the path. -/
theorem Linked.fits {p : List String} {i depth : Nat} (h : g.at? rootId p = some i)
    (hroom : g.vertices.length ≤ p.length + depth) : g.Fits depth i := by
  induction depth generalizing p i with
  | zero => exact absurd (hg.length_lt_of_at? h) (Nat.not_lt.mpr hroom)
  | succ depth ih =>
    rintro c ⟨n, hn⟩
    refine ih (at?_concat_eq_some_iff.mpr ⟨i, h, hn⟩) ?_
    rw [List.length_append, List.length_singleton]
    omega

theorem Linked.view_eq {p : List String} {i : Nat} (h : g.at? rootId p = some i) :
    g.view i = if (g.vertex i).isDir then
        .dir (g.vertex i).key ((g.vertex i).children.map fun c => g.view c.2)
      else .leaf (g.vertex i).key (g.vertex i).value :=
  (hg.fits h (Nat.le_add_left ..)).view_eq
    (fun hd e he => ⟨e.1, hg.child?_eq_some_iff.mpr ⟨_, hd, he⟩⟩) (hg.get?_of_at? h)

/-- A snapshot is made of what stands at its path and of the snapshots of the children. -/
theorem Linked.snapshot?_eq (p : List String) :
    g.snapshot? p = (g.pathMap p).map fun
      | .leaf value => .leaf (Path.render p) value
      | .dir => .dir (Path.render p) ((g.names p).filterMap fun n => g.snapshot? (p ++ [n])) := by
  cases hp : g.at? rootId p with
  | none =>
    have hnone := pathMap_eq_none_iff.mpr hp
    rw [hnone, snapshot?_eq_none_iff.mpr hnone]
    rfl
  | some i =>
    rw [snapshot?_of_at? hp, pathMap_of_at? hp, hg.view_eq hp, hg.key_of_at? hp, names_of_at? hp,
      Option.map_some]
    cases hdir : (g.vertex i).isDir with
    | false =>
      rw [Vertex.entry_of_leaf hdir]
      rfl
    | true =>
      have hcs : (((g.vertex i).children.map (·.1)).filterMap fun n => g.snapshot? (p ++ [n])) =
          (g.vertex i).children.map fun c => g.view c.2 := by
        rw [List.filterMap_map, ← List.filterMap_eq_map]
        exact List.filterMap_congr fun c hc => snapshot?_of_at? (hg.at?_child hp hc)
      rw [Vertex.entry_of_isDir hdir, if_pos rfl, hcs]

/-- A node with nothing below it. -/
theorem Linked.snapshot?_of_bare {p : List String} {isDir : Bool} {value : Option String}
    (h : g.pathMap p = some (.new isDir value)) (hbare : ∀ n, g.pathMap (p ++ [n]) = none) :
    g.snapshot? p = some (.mk (Path.render p) isDir value) := by
  have hchildren : ((g.names p).filterMap fun n => g.snapshot? (p ++ [n])) = [] :=
    List.filterMap_eq_nil_iff.mpr fun n _ => snapshot?_eq_none_iff.mpr (hbare n)
  rw [hg.snapshot?_eq, h, hchildren]
  cases isDir <;> rfl

theorem Linked.key_of_snapshot? {p : List String} {n : Node} (h : g.snapshot? p = some n) :
    n.key = Path.render p := by
  rw [hg.snapshot?_eq, Option.map_eq_some_iff] at h
  obtain ⟨e, -, rfl⟩ := h
  cases e <;> rfl

theorem Linked.isPath_of_snapshot? {p : List String} {n : Node} (h : g.snapshot? p = some n) :
    Path.IsPath p := by
  obtain ⟨i, hi, -⟩ := Option.map_eq_some_iff.mp h
  exact hg.isPath_of_at? hi

theorem Linked.split_key_of_snapshot? {p : List String} {n : Node} (h : g.snapshot? p = some n) :
    Path.split n.key = p := by
  rw [hg.key_of_snapshot? h, Path.split_render (hg.isPath_of_snapshot? h)]

theorem Linked.pathMap_of_snapshot? {p : List String} {n : Node} (h : g.snapshot? p = some n) :
    g.pathMap p = some (.new n.isDir n.value) := by
  rw [hg.snapshot?_eq, Option.map_eq_some_iff] at h
  obtain ⟨e, he, rfl⟩ := h
  rw [he]
  cases e <;> rfl

theorem Linked.key_snapshot {p : List String} {i : Nat} (h : g.at? rootId p = some i) :
    ((g.view i).clone none false).key = Path.render p := by
  rw [Node.clone_whole]
  exact hg.key_of_snapshot? (snapshot?_of_at? h)

theorem Linked.pathMap_of_long {p : List String} (h : g.vertices.length ≤ p.length) :
    g.pathMap p = none := by
  rw [pathMap_eq_none_iff]
  by_contra hne
  obtain ⟨i, hi⟩ := Option.ne_none_iff_exists'.mp hne
  exact absurd (hg.length_lt_of_at? hi) (Nat.not_lt.mpr h)

theorem Linked.names_children (p : List String) :
    ((g.names p).filterMap fun n => g.snapshot? (p ++ [n])).map Node.name = g.names p := by
  rw [List.map_filterMap]
  refine (List.filterMap_congr fun n hn => ?_).trans (List.filterMap_some ..)
  obtain ⟨i, hi⟩ := Option.ne_none_iff_exists'.mp (hg.mem_names.mp hn)
  obtain ⟨hp, hn⟩ := Path.isPath_append.mp (hg.isPath_of_at? hi)
  have hkey := hg.key_of_snapshot? (snapshot?_of_at? hi)
  rw [snapshot?_of_at? hi, Option.map_some, Node.name, hkey, ← Path.join_render hp,
    Path.baseName_join (Path.isPath_singleton.mp hn).2.1]

/-! ### What determines a snapshot -/

/-- From where nothing is up to the root: what holds of a path if it holds of all the places
directly below it. -/
theorem Linked.bottom_up {P : List String → Prop} (hnone : ∀ p, g.pathMap p = none → P p)
    (hstep : ∀ p, (∀ n, P (p ++ [n])) → P p) (p : List String) : P p := by
  obtain ⟨k, hk⟩ : ∃ k, g.vertices.length ≤ p.length + k := ⟨_, Nat.le_add_left ..⟩
  induction k generalizing p with
  | zero => exact hnone p (hg.pathMap_of_long hk)
  | succ k ih =>
    refine hstep p fun n => ih (p ++ [n]) ?_
    rw [List.length_append, List.length_singleton]
    omega

theorem Linked.snapshot?_congr {g' : Graph} (hg' : Linked g') (p : List String)
    (hmap : ∀ q, g'.pathMap (p ++ q) = g.pathMap (p ++ q))
    (hnames : ∀ q, g'.names (p ++ q) = g.names (p ++ q)) : g'.snapshot? p = g.snapshot? p := by
  induction p using hg.bottom_up with
  | hnone p hp =>
    have hp' := hmap []
    rw [List.append_nil, hp] at hp'
    rw [snapshot?_eq_none_iff.mpr hp, snapshot?_eq_none_iff.mpr hp']
  | hstep p ih =>
    have hmap₀ := hmap []
    have hnames₀ := hnames []
    rw [List.append_nil] at hmap₀ hnames₀
    have hchildren (n : String) : g'.snapshot? (p ++ [n]) = g.snapshot? (p ++ [n]) :=
      ih n (fun q => by simpa using hmap (n :: q)) fun q => by simpa using hnames (n :: q)
    rw [hg.snapshot?_eq, hg'.snapshot?_eq, hmap₀, hnames₀]
    simp only [hchildren]

theorem Linked.sorted_congr {g' : Graph} (hg' : Linked g') (p : List String)
    (hmap : ∀ q, g'.pathMap (p ++ q) = g.pathMap (p ++ q)) :
    (g'.snapshot? p).map (Node.clone none true) = (g.snapshot? p).map (Node.clone none true) := by
  induction p using hg.bottom_up with
  | hnone p hp =>
    have hp' := hmap []
    rw [List.append_nil, hp] at hp'
    rw [snapshot?_eq_none_iff.mpr hp, snapshot?_eq_none_iff.mpr hp']
  | hstep p ih =>
    have hmap₀ := hmap []
    rw [List.append_nil] at hmap₀
    have hchildren (n : String) : (g'.snapshot? (p ++ [n])).map (Node.clone none true) =
        (g.snapshot? (p ++ [n])).map (Node.clone none true) :=
      ih n fun q => by simpa using hmap (n :: q)
    rw [hg.snapshot?_eq, hg'.snapshot?_eq, hmap₀]
    cases g.pathMap p with
    | none => rfl
    | some e =>
      cases e with
      | leaf value => rfl
      | dir =>
        -- the same children, in an order that sorting forgets
        have hperm : (g'.names p).Perm (g.names p) := by
          refine (List.perm_ext_iff_of_nodup (hg'.nodup_names p) (hg.nodup_names p)).mpr fun n => ?_
          rw [hg.mem_names_iff, hg'.mem_names_iff, hmap]
        have hnodup : ((((g'.names p).filterMap fun n => g'.snapshot? (p ++ [n])).map
            (Node.clone none true)).map Node.name).Nodup := by
          rw [Node.map_name_clone, hg'.names_children]
          exact hg'.nodup_names p
        rw [Option.map_some, Option.map_some, Option.map_some, Option.map_some,
          Node.clone_sorted_dir, Node.clone_sorted_dir, Node.sortByName_eq_of_perm ?_ hnodup]
        simp only [List.map_filterMap, hchildren]
        exact hperm.filterMap _

end Linked

end TreeStore.Graph
