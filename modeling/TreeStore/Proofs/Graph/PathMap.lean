import TreeStore.Proofs.Graph.Siblings
import TreeStore.Proofs.PathMap

/-!
# The path map of a linked graph

`Graph.pathMap` reads off what stands at every path of the tree.  Each change of a linked graph is a
change of its path map, and the way a walk ends is decided by the path map: `Linked.resolve_cases`.
-/

namespace TreeStore

/-- What the node shows at its path. -/
def Vertex.entry (v : Vertex) : Entry := .new v.isDir v.value

theorem Vertex.entry_of_isDir {v : Vertex} (h : v.isDir = true) : v.entry = .dir := by
  simp [Vertex.entry, Entry.new, h]

theorem Vertex.entry_of_leaf {v : Vertex} (h : v.isDir = false) : v.entry = .leaf v.value := by
  simp [Vertex.entry, Entry.new, h]

theorem Vertex.entry_eq_dir_iff {v : Vertex} : v.entry = .dir ↔ v.isDir = true := by
  cases h : v.isDir with
  | true => simp [Vertex.entry_of_isDir h]
  | false => simp [Vertex.entry_of_leaf h]

theorem Vertex.entry_new (key : String) (isDir : Bool) (value : Option String) :
    (Vertex.new key isDir value).entry = .new isDir value := by
  cases isDir <;> rfl

namespace Graph

/-- What stands at every path of the tree. -/
def pathMap (g : Graph) : PathMap := fun p => (g.at? rootId p).map fun i => (g.vertex i).entry

theorem pathMap_of_at? {g : Graph} {p : List String} {i : Nat} (h : g.at? rootId p = some i) :
    g.pathMap p = some (g.vertex i).entry := by
  rw [pathMap, h, Option.map_some]

theorem pathMap_eq_none_iff {g : Graph} {p : List String} :
    g.pathMap p = none ↔ g.at? rootId p = none := by
  rw [pathMap, Option.map_eq_none_iff]

/-- In a new graph there are no leaves. -/
theorem pathMap_rooted_ne_leaf (p : List String) (v : Option String) :
    rooted.pathMap p ≠ some (.leaf v) := by
  intro h
  obtain ⟨i, hi, hentry⟩ := Option.map_eq_some_iff.mp h
  have hget := linked_rooted.get?_of_at? hi
  rw [get?_rooted] at hget
  split_ifs at hget
  rw [← Option.some.inj hget] at hentry
  cases hentry

theorem entry_of_label {g g' : Graph} {i : Nat}
    (h : (g'.get? i).map Vertex.label = (g.get? i).map Vertex.label) :
    (g'.vertex i).entry = (g.vertex i).entry := by
  unfold vertex
  cases hi : g.get? i with
  | none =>
    rw [hi, Option.map_none, Option.map_eq_none_iff] at h
    rw [h]
  | some v =>
    rw [hi, Option.map_some, Option.map_eq_some_iff] at h
    obtain ⟨v', hv', hl⟩ := h
    simp only [Vertex.label, Prod.mk.injEq] at hl
    rw [hv', Option.getD_some, Option.getD_some, Vertex.entry, Vertex.entry, hl.2.1, hl.2.2]

section Linked

variable {g : Graph} (hg : Linked g)
include hg

theorem Linked.closed_pathMap : g.pathMap.Closed where
  root := by
    obtain ⟨v, hv, -, hdir, -⟩ := hg.root
    rw [pathMap_of_at? (at?_nil g rootId), vertex_of_get? hv, Vertex.entry_of_isDir hdir]
  up := by
    intro p n h
    rw [ne_eq, pathMap_eq_none_iff, ← ne_eq, Option.ne_none_iff_exists'] at h
    obtain ⟨c, hc⟩ := h
    obtain ⟨d, hd, hdc⟩ := at?_concat_eq_some_iff.mp hc
    rw [pathMap_of_at? hd, Vertex.entry_of_isDir (isDir_of_child? hdc)]

theorem Linked.hasChild_iff {p : List String} {i : Nat} (h : g.at? rootId p = some i) :
    g.pathMap.HasChild p ↔ (g.vertex i).children ≠ [] := by
  have hi := hg.get?_of_at? h
  constructor
  · rintro ⟨n, hn⟩ hnil
    refine hn (pathMap_eq_none_iff.mpr ?_)
    rw [at?_concat, h, Option.bind_some, hg.child?_eq_lookup hi, hnil]
    rfl
  · intro hne
    obtain ⟨⟨n, c⟩, rest, hcs⟩ := List.exists_cons_of_ne_nil hne
    refine ⟨n, fun hnone => ?_⟩
    rw [pathMap_eq_none_iff, at?_concat, h, Option.bind_some, hg.child?_eq_lookup hi, hcs,
      List.lookup_cons] at hnone
    simp at hnone

/-- How the walk along a key ends, and what the path map says then. -/
theorem Linked.resolve_cases (key : String) {p : List String}
    (hp : Path.split (Path.normalize key) = p) :
    (∃ i, g.at? rootId p = some i ∧ g.resolve rootId key = .found i (g.vertex i).parent ∧
      g.pathMap.blocker p = none) ∨
    (∃ q n rest d, p = q ++ n :: rest ∧ g.at? rootId q = some d ∧ (g.vertex d).isDir = true ∧
      g.child? d n = none ∧ g.resolve rootId key = .missing d (n :: rest) ∧
      g.pathMap p = none ∧ g.pathMap.blocker p = none) ∨
    (∃ q l names, g.at? rootId q = some l ∧
      g.resolve rootId key = .blocked l (g.vertex l).parent names ∧
      g.pathMap p = none ∧ g.pathMap.blocker p = some q) := by
  have hM := hg.closed_pathMap
  rw [resolve, hp]
  rcases walk_cases g none rootId p with ⟨i, hi, hw⟩ | ⟨q, n, rest, d, rfl, hd, hdir, hc, hw⟩ |
    ⟨q, n, rest, l, names, rfl, hl, hleaf, hw⟩
  · refine Or.inl ⟨i, hi, hw, hM.blocker_of_present ?_⟩
    rw [pathMap_of_at? hi]
    simp
  · have hqn : g.pathMap (q ++ [n]) = none := by
      rw [pathMap_eq_none_iff, at?_concat, hd, Option.bind_some, hc]
    have hpre : q ++ [n] <+: q ++ n :: rest := ⟨rest, by simp⟩
    have hqd : g.pathMap q = some .dir := by rw [pathMap_of_at? hd, Vertex.entry_of_isDir hdir]
    exact Or.inr (Or.inl ⟨q, n, rest, d, rfl, hd, hdir, hc, hw, hM.none_of_prefix hpre hqn,
      hM.blocker_of_gap hqd hqn rest⟩)
  · have hlv : g.pathMap q = some (.leaf (g.vertex l).value) := by
      rw [pathMap_of_at? hl, Vertex.entry_of_leaf hleaf]
    have hb : g.pathMap.Blocks q (q ++ n :: rest) :=
      ⟨List.prefix_append q (n :: rest), by simp, _, hlv⟩
    refine Or.inr (Or.inr ⟨q, l, names, hl, hw, ?_, hM.blocker_eq_some_iff.mpr hb⟩)
    by_contra hne
    rw [hM.of_prefix hb.1 hb.2.1 hne] at hlv
    cases hlv

/-! ### Changes -/

theorem Linked.pathMap_new (key : String) (isDir : Bool) (value : Option String) :
    (g.new key isDir value).2.pathMap = g.pathMap := by
  funext p
  unfold pathMap
  rw [at?_congr (child?_new key isDir value g)]
  refine Option.map_congr fun i hi => ?_
  have hv := hg.get?_of_at? hi
  rw [vertex_of_get? (get?_new_of_some key isDir value hv)]

theorem Linked.pathMap_attached {g' : Graph} {d c : Nat} {v w : Vertex} {n : String}
    {p : List String} (h : Attachable g d c v w n) (ha : Attached g g' d c v w)
    (hw : w.children = []) (hp : g.at? rootId p = some d) :
    g'.pathMap = g.pathMap.replace (p ++ [n]) w.entry := by
  have hlabel := ha.label h.directory h.node
  funext q
  unfold pathMap PathMap.replace
  rw [hg.at?_attached h ha hw hp]
  split_ifs
  · rw [Option.map_some, entry_of_label (hlabel c), vertex_of_get? h.node]
  · rfl
  · exact Option.map_congr fun i _ => entry_of_label (hlabel i)

theorem Linked.pathMap_detached {g' : Graph} {d c : Nat} {v : Vertex} {n : String}
    {p : List String} (hd : g.get? d = some v) (hc : g.child? d n = some c)
    (h : Detached g g' d c v n) (hp : g.at? rootId p = some d) :
    g'.pathMap = g.pathMap.erase (p ++ [n]) := by
  funext q
  unfold pathMap PathMap.erase
  rw [hg.at?_detached hd hc h hp]
  split_ifs
  · rfl
  · exact Option.map_congr fun i _ => entry_of_label (h.label hd i)

theorem Linked.pathMap_setValue {p : List String} {i : Nat} (hp : g.at? rootId p = some i)
    (hleaf : (g.vertex i).isDir = false) (value : Option String) :
    (g.setValue i value).pathMap = g.pathMap.write p (.leaf value) := by
  have hi := hg.get?_of_at? hp
  funext q
  unfold pathMap PathMap.write
  rw [at?_congr (child?_setValue g i value)]
  by_cases hq : q = p
  · subst hq
    have hget := get?_setValue hi value i
    rw [if_pos rfl] at hget
    rw [hp, Option.map_some, if_pos rfl, vertex_of_get? hget]
    exact congrArg some (Vertex.entry_of_leaf (v := { g.vertex i with value := value }) hleaf)
  · rw [if_neg hq]
    refine Option.map_congr fun j hj => ?_
    have hji : j ≠ i := fun h => hq (hg.at?_inj (h ▸ hj) hp)
    have hget := get?_setValue hi value j
    rw [if_neg hji] at hget
    rw [vertex, vertex, hget]

theorem Linked.mem_names_iff {p : List String} {n : String} :
    n ∈ g.names p ↔ g.pathMap (p ++ [n]) ≠ none := by
  rw [hg.mem_names, ne_eq, ne_eq, pathMap_eq_none_iff]

theorem Linked.names_eq_nil_iff {p : List String} :
    g.names p = [] ↔ ∀ n, g.pathMap (p ++ [n]) = none := by
  rw [List.eq_nil_iff_forall_not_mem]
  exact forall_congr' fun n => by rw [hg.mem_names_iff, not_not]

section Order

variable {g' : Graph} (hg' : Linked g') (h : KeepsOrder g g') {p : List String}
include hg' h

/-- Where the same names are there, they stay in their order. -/
theorem Linked.names_kept
    (hsame : ∀ n, g'.pathMap (p ++ [n]) ≠ none ↔ g.pathMap (p ++ [n]) ≠ none) :
    g'.names p = g.names p :=
  h.names_eq (hg.nodup_names p) fun n => by rw [hg'.mem_names_iff, hg.mem_names_iff, hsame]

/-- Where the path map stays, the order in a directory stays. -/
theorem Linked.names_eq (hsame : ∀ n, g'.pathMap (p ++ [n]) = g.pathMap (p ++ [n])) :
    g'.names p = g.names p :=
  hg.names_kept hg' h fun n => by rw [hsame]

/-- Where one name comes, it stands behind the others. -/
theorem Linked.names_concat {n : String} (hn : g.pathMap (p ++ [n]) = none)
    (hone : ∀ m, g'.pathMap (p ++ [m]) ≠ none ↔ g.pathMap (p ++ [m]) ≠ none ∨ m = n) :
    g'.names p = g.names p ++ [n] :=
  h.names_concat (hg.nodup_names p) (hg'.nodup_names p) (fun hm => hg.mem_names_iff.mp hm hn)
    fun m => by rw [hg'.mem_names_iff, hg.mem_names_iff, hone]

/-- Where one name goes, the others stay as they stand. -/
theorem Linked.names_erase {n : String}
    (hone : ∀ m, g'.pathMap (p ++ [m]) ≠ none ↔ g.pathMap (p ++ [m]) ≠ none ∧ m ≠ n) :
    g'.names p = (g.names p).erase n :=
  h.names_erase (hg.nodup_names p) fun m => by rw [hg'.mem_names_iff, hg.mem_names_iff, hone]

end Order

/-- A new node takes its place in a directory, and whatever stood there goes. -/
theorem Linked.hang {p : List String} {d : Nat} {n : String} (hp : g.at? rootId p = some d)
    (hdir : (g.vertex d).isDir = true) (hn : Path.IsSegment n) (isDir : Bool)
    (value : Option String) :
    ∃ g', (g.new (Path.render (p ++ [n])) isDir value).2.addChild d g.vertices.length = .ok g' ∧
      g'.Linked ∧ g'.at? rootId (p ++ [n]) = some g.vertices.length ∧
      g'.pathMap = g.pathMap.replace (p ++ [n]) (.new isDir value) ∧ KeepsOrder g g' := by
  have hg1 := hg.new (Path.render (p ++ [n])) isDir value
  have hp1 : (g.new (Path.render (p ++ [n])) isDir value).2.at? rootId p = some d := by
    rw [at?_congr (child?_new _ isDir value g), hp]
  have h : Attachable (g.new (Path.render (p ++ [n])) isDir value).2 d g.vertices.length
      (g.vertex d) (.new (Path.render (p ++ [n])) isDir value) n :=
    { directory := get?_new_of_some _ isDir value (hg.get?_of_at? hp)
      isDir := hdir
      node := get?_new_self _ isDir value g
      segment := hn
      key := by rw [hg.key_of_at? hp, Path.join_render (hg.isPath_of_at? hp)]; rfl
      parent := rfl }
  obtain ⟨g', hok, ha⟩ := h.addChild_ok hg1
  refine ⟨g', hok, hg1.attached h ha, ?_, ?_, ?_⟩
  · rw [hg1.at?_attached h ha rfl hp1, if_pos rfl]
  · rw [hg1.pathMap_attached h ha rfl hp1, hg.pathMap_new, Vertex.entry_new]
  · have hnew : KeepsOrder g (g.new (Path.render (p ++ [n])) isDir value).2 :=
      keepsOrder_of_names_eq (hg.names_new _ isDir value)
    exact hnew.trans (fun q => by rw [hg.names_new]; exact List.Subset.refl _)
      (hg1.keepsOrder_attached h ha rfl hp1)

end Linked

end Graph

end TreeStore
