import TreeStore.Proofs.Graph.Sharing
import TreeStore.Result

/-!
# Copies in a graph

`Copies` says node by node what a copy is: every node of it is new and has the key, the kind and, as
a leaf, the value of the node it was made from; where the depth reaches it holds a copy for each
child, in the order of the children or of their names, and each of these is linked to it.

A copy is planted from the view of a node, and a planted tree is made up of planted trees, so that
`Wired.copies` goes up from the nodes that hold nothing.  Copies of copies are compared through
their views, where `Node.clone_comp` applies.
-/

namespace TreeStore

/-- The names of the children, in their order. -/
def Vertex.names (v : Vertex) : List String := v.children.map (·.1)

/-- The names `ns` of a copy, made of a node with the children `names`. -/
def Node.Depth.Lists (depth : Node.Depth) (sorted : Bool) (names ns : List String) : Prop :=
  if depth.reaches then if sorted then ns.Pairwise (· < ·) ∧ ns.Perm names else ns = names
  else ns = []

namespace Graph

variable {g g' : Graph} {i j : Nat} {v w : Vertex} {depth : Node.Depth} {sorted : Bool}

/-- The node `j` of `g'`, which is not in `g`, is a copy of the node `i` of `g` with `depth` levels
of children. -/
inductive Copies (g g' : Graph) (sorted : Bool) : Node.Depth → Nat → Nat → Prop
  | copy {depth : Node.Depth} {i j : Nat} {v w : Vertex} (original : g.get? i = some v)
      (copy : g'.get? j = some w) (fresh : g.get? j = none) (key : w.key = v.key)
      (isDir : w.isDir = v.isDir) (value : w.value = if v.isDir then none else v.value)
      (names : depth.Lists sorted v.names w.names)
      (linked : ∀ e ∈ w.children, g'.parent? e.2 = some j)
      (below : ∀ n c c', (n, c) ∈ v.children → (n, c') ∈ w.children →
        Copies g g' sorted depth.below c c') :
      Copies g g' sorted depth i j

/-- The names in a copy of a node whose children have different names. -/
theorem lists_names {n : Node} (hn : (n.children.map Node.name).Nodup) :
    depth.Lists sorted (n.children.map Node.name)
      ((n.clone depth sorted).children.map Node.name) := by
  rw [Node.Depth.Lists, Node.children_clone]
  cases depth.reaches with
  | false => rfl
  | true =>
    simp only [if_true]
    rw [Node.map_name_clone]
    cases sorted with
    | false => rfl
    | true => exact ⟨Node.pairwise_lt_sortByName hn, (Node.sortByName_perm n.children).map _⟩

/-- A planted copy of the view of a node is a copy of that node. -/
theorem Wired.copies (hg : Wired g) (ha : g.Acyclic) (hi : g.get? i = some v) {link : Option Nat}
    {e : String × Nat} {m : Nat} (hnew : g.vertices.length ≤ e.2)
    (h : Forest g' link [(g.view i).clone depth sorted] [e] e.2 m) :
    Copies g g' sorted depth i e.2 := by
  revert depth link e m
  refine hg.bottom_up ha (P := fun i => ∀ {depth link e m}, g.vertices.length ≤ e.2 →
    Forest g' link [(g.view i).clone depth sorted] [e] e.2 m →
    Copies g g' sorted depth i e.2) (fun i v hi ih depth link e m hnew h => ?_) hi
  obtain ⟨w, hw, hkey, hdir, hvalue, -, hbelow⟩ := h.single
  have hnames := hg.map_name_children_view ha hi
  refine .copy hi hw (get?_of_length_le hnew) ?_ ?_ ?_ ?_ (fun c hc => ?_) fun n c c' hc hc' => ?_
  · rw [hkey, Node.key_clone, hg.key_view ha hi]
  · rw [hdir, Node.isDir_clone, hg.isDir_view ha hi]
  · rw [hvalue, Node.value_clone, hg.value_view ha hi]
  · rw [Vertex.names, Vertex.names, hbelow.map_name, ← hnames]
    exact lists_names (hnames ▸ hg.nodup i v hi)
  · obtain ⟨z, hz, -, hparent, -⟩ := hbelow.root hc
    rw [parent?_of_get? hz, hparent]
  · obtain ⟨t, ht, hname, m', hle, htree⟩ := hbelow.tree_of_mem hc'
    rw [Node.children_clone] at ht
    split_ifs at ht with hreaches
    · obtain ⟨x, hx, rfl⟩ := List.mem_map.mp ht
      have hx := (Node.listing_perm _ sorted).subset hx
      rw [hg.children_view ha hi] at hx
      obtain ⟨⟨n', c₀⟩, hc₀, rfl⟩ := List.mem_map.mp hx
      -- the tree is that of the child with this name
      have hn : n' = n := (hg.name_view_of_mem ha hi hc₀).symm.trans
        ((Node.name_clone depth.below sorted _).symm.trans hname)
      subst hn
      have hcc : c₀ = c := Option.some.inj
        (((mem_iff_lookup (hg.nodup i v hi)).mp hc₀).symm.trans
          ((mem_iff_lookup (hg.nodup i v hi)).mp hc))
      subst hcc
      exact ih (n', c₀) hc (by omega) htree
    · cases ht

/-- What a copy is.  The new node is a copy of the old one, down to the depth, and is linked to
nothing; no node that was there is changed, and no cycle comes about.  A copy of the copy is the
copy to the smaller depth, sorted if one of them is, and a depth below zero is as good as zero.  A
whole copy reads as the original. -/
theorem Run.clone_copies {history : List (Graph × Operation)} (h : Run history g) (ha : g.Acyclic)
    (hi : g.get? i = some v) (depth : Node.Depth) (sorted : Bool) :
    ∃ j g', g.clone i depth sorted = (j, g') ∧ Copies g g' sorted depth i j ∧
      g'.parent? j = none ∧ (∀ m x, g.get? m = some x → g'.get? m = some x) ∧ g'.Acyclic ∧
      (∀ depth' sorted', ∃ k g'', g'.clone j depth' sorted' = (k, g'') ∧
        Copies g g'' (sorted || sorted') (depth.meet depth') i k ∧
        g''.view k = (g.clone i (depth.meet depth') (sorted || sorted')).2.view
          (g.clone i (depth.meet depth') (sorted || sorted')).1) ∧
      (∀ d ≤ 0, g.clone i (some d) sorted = g.clone i (some 0) sorted) ∧
      (depth = none → sorted = false → g'.view j = g.view i ∧
        (g'.view j).toJson = (g.view i).toJson) := by
  have hg := h.wired
  obtain ⟨g', hclone, hext, hf⟩ := clone_forest g i depth sorted
  have hview : g'.view g.vertices.length = (g.view i).clone depth sorted := by
    have hview := view_clone g i depth sorted
    rwa [hclone] at hview
  obtain ⟨z, hz, -, hparent, -⟩ := hf.root List.mem_cons_self
  refine ⟨_, g', hclone, hg.copies ha hi (Nat.le_refl _) hf, ?_, hext,
    ha.planted hg hext hf ((hg.distinct_view ha hi).clone depth sorted), ?_, ?_, ?_⟩
  · rw [parent?_of_get? hz, hparent]
  · intro depth' sorted'
    obtain ⟨g'', hclone', hext', hf'⟩ := clone_forest g' g.vertices.length depth' sorted'
    have hview' := view_clone g' g.vertices.length depth' sorted'
    rw [hview, Node.clone_comp, hclone'] at hview'
    rw [hview, Node.clone_comp] at hf'
    exact ⟨_, g'', hclone', hg.copies ha hi hext.length_le hf',
      hview'.trans (view_clone g i _ _).symm⟩
  · intro d hd
    rw [clone, clone, Node.clone_of_nonpos hd]
  · rintro rfl rfl
    rw [hview, Node.clone_whole]
    exact ⟨rfl, rfl⟩

/-- A leaf that two directories share is copied once for each of them. -/
theorem Run.clone_copies_shared :
    ∃ history g g', Run history g ∧ g.Acyclic ∧ g.Holds 1 3 ∧ g.Holds 2 3 ∧
      g.clone 0 none false = (4, g') ∧ Copies g g' false none 0 4 ∧ g'.parent? 4 = none ∧
      g'.Holds 4 5 ∧ g'.Holds 5 6 ∧ g'.Holds 4 7 ∧ g'.Holds 7 8 ∧
      (g'.view 4).toJson = (g.view 0).toJson := by
  have h₀ := Run.start.step (.new "/" true none) trivial
  have h₁ := h₀.step (.new "/b" true none) trivial
  have h₂ := h₁.step (.new "/a" true none) trivial
  have h₃ := h₂.step (.new "/a/x" false (some "")) trivial
  have h₄ := h₃.step (.addChild 0 1) trivial
  have h₅ := h₄.step (.addChild 0 2) trivial
  have h₆ := h₅.step (.addChild 1 3) trivial
  let g : Graph := ⟨[
    { key := "/", isDir := true, value := none, children := [("b", 1), ("a", 2)] },
    { key := "/b", isDir := true, value := none, children := [("x", 3)], parent := some 0 },
    { key := "/a", isDir := true, value := none, children := [("x", 3)], parent := some 0 },
    { key := "/a/x", isDir := false, value := some "", parent := some 2 }]⟩
  have h : Run _ g := h₆.step (.addChild 2 3) trivial
  have ha : g.Acyclic := acyclic_of_forward (by decide)
  obtain ⟨v, hv⟩ : ∃ v, g.get? 0 = some v := ⟨_, rfl⟩
  obtain ⟨j, g', hclone, hcopies, hparent, -, -, -, -, hwhole⟩ := h.clone_copies ha hv none false
  obtain ⟨rfl, rfl⟩ := Prod.mk.inj hclone
  exact ⟨_, g, _, h, ha, ⟨"x", rfl⟩, ⟨"x", rfl⟩, rfl, hcopies, hparent, ⟨"b", by decide⟩,
    ⟨"x", by decide⟩, ⟨"a", by decide⟩, ⟨"x", by decide⟩, (hwhole rfl rfl).2⟩

end Graph

end TreeStore
