import TreeStore.Proofs.Graph.Cells
import TreeStore.Proofs.Path.Canonical

/-!
# Linked graphs

`Linked` is the invariant of a store's graph.  It speaks about every node, also about those that are
no longer in the tree: a node is sound by itself, and a child carries the key, the name and the link
that belong to the place where its directory holds it.  The root has key `/` and no link.

Since a link names one directory and the names in a directory are distinct, no node is held twice,
which is why each change of a graph can be described by what it does to `child?`.

* `Linked.new`, `Linked.attached`, `Linked.detached`, `Linked.setValue`: the four changes keep it;
* `Linked.child?_attached`, `Linked.child?_detached`: which child a name stands for afterwards, like
  `child?_new` and `child?_setValue`.
-/

namespace TreeStore

/-- A directory has no value and a leaf no children; names of children are distinct segments. -/
structure Vertex.Sound (v : Vertex) : Prop where
  value_of_dir : v.isDir = true → v.value = none
  children_of_leaf : v.isDir = false → v.children = []
  nodup : (v.children.map (·.1)).Nodup
  segment : ∀ n c, (n, c) ∈ v.children → Path.IsSegment n

theorem Vertex.sound_new (key : String) (isDir : Bool) (value : Option String) :
    (Vertex.new key isDir value).Sound where
  value_of_dir := fun h => by
    have h : isDir = true := h
    simp [Vertex.new, h]
  children_of_leaf := fun _ => rfl
  nodup := by simp [Vertex.new]
  segment := by simp [Vertex.new]

namespace Graph

/-- The invariant of the nodes, their keys and their links. -/
structure Linked (g : Graph) : Prop where
  root : ∃ v, g.get? rootId = some v ∧ v.key = "/" ∧ v.isDir = true ∧ v.parent = none
  sound : ∀ i v, g.get? i = some v → v.Sound
  child : ∀ d v n c, g.get? d = some v → (n, c) ∈ v.children →
    ∃ w, g.get? c = some w ∧ w.key = Path.join v.key n ∧ w.parent = some d

theorem linked_rooted : Linked rooted where
  root := ⟨_, get?_rooted rootId, rfl, rfl, rfl⟩
  sound := by
    intro i v h
    rw [get?_rooted] at h
    split_ifs at h
    rw [← Option.some.inj h]
    exact Vertex.sound_new "/" true none
  child := by
    intro d v n c h hm
    rw [get?_rooted] at h
    split_ifs at h
    rw [← Option.some.inj h] at hm
    simp [Vertex.new] at hm

namespace Linked

variable {g g' : Graph} (hg : Linked g)
include hg

/-! ### What a child tells about its directory -/

theorem child?_eq_some_iff {d c : Nat} {n : String} :
    g.child? d n = some c ↔ ∃ v, g.get? d = some v ∧ (n, c) ∈ v.children := by
  unfold child?
  cases hd : g.get? d with
  | none => simp
  | some v =>
    have hv := hg.sound d v hd
    simp only [Option.bind_some, Option.some.injEq, exists_eq_left', mem_iff_lookup hv.nodup]
    cases hdir : v.isDir with
    | true => simp
    | false => simp [hv.children_of_leaf hdir]

theorem child?_eq_lookup {d : Nat} {v : Vertex} (hd : g.get? d = some v) (n : String) :
    g.child? d n = v.children.lookup n := by
  cases hdir : v.isDir with
  | true => simp [child?, hd, hdir]
  | false => simp [child?, hd, hdir, (hg.sound d v hd).children_of_leaf hdir]

theorem of_child? {d c : Nat} {n : String} (h : g.child? d n = some c) :
    ∃ v w, g.get? d = some v ∧ g.get? c = some w ∧ v.isDir = true ∧ Path.IsSegment n ∧
      w.key = Path.join v.key n ∧ w.parent = some d := by
  obtain ⟨v, hd, hm⟩ := hg.child?_eq_some_iff.mp h
  obtain ⟨w, hc, hk, hp⟩ := hg.child d v n c hd hm
  refine ⟨v, w, hd, hc, ?_, (hg.sound d v hd).segment n c hm, hk, hp⟩
  cases hdir : v.isDir with
  | true => rfl
  | false => rw [(hg.sound d v hd).children_of_leaf hdir] at hm; simp at hm

theorem parent_of_child? {d c : Nat} {n : String} {w : Vertex} (h : g.child? d n = some c)
    (hc : g.get? c = some w) : w.parent = some d := by
  obtain ⟨-, w', -, hc', -, -, -, hp⟩ := hg.of_child? h
  rw [hc, Option.some.injEq] at hc'
  rw [hc', hp]

theorem name_of_child? {d c : Nat} {n : String} {w : Vertex} (h : g.child? d n = some c)
    (hc : g.get? c = some w) : w.name = n := by
  obtain ⟨v, w', -, hc', -, hn, hk, -⟩ := hg.of_child? h
  rw [hc, Option.some.injEq] at hc'
  rw [Vertex.name, hc', hk, Path.baseName_join hn.2.1]

/-- A node is held by one directory only, and there under one name. -/
theorem child?_inj {d e c : Nat} {n m : String} (h1 : g.child? d n = some c)
    (h2 : g.child? e m = some c) : d = e ∧ n = m := by
  obtain ⟨-, w, -, hc, -, -, -, hp⟩ := hg.of_child? h1
  have hp' := hg.parent_of_child? h2 hc
  rw [hp, Option.some.injEq] at hp'
  exact ⟨hp', (hg.name_of_child? h1 hc).symm.trans (hg.name_of_child? h2 hc)⟩

theorem child?_ne_self {d : Nat} {n : String} : g.child? d n ≠ some d := by
  intro h
  obtain ⟨v, w, hd, hd', -, hn, hk, -⟩ := hg.of_child? h
  rw [hd, Option.some.injEq] at hd'
  exact Path.join_ne_self hn.1 v.key (by rw [← hk, hd'])

theorem child?_ne_root {d : Nat} {n : String} : g.child? d n ≠ some rootId := by
  intro h
  obtain ⟨r, hr, -, -, hp⟩ := hg.root
  have hp' := hg.parent_of_child? h hr
  rw [hp] at hp'
  cases hp'

end Linked

/-! ### A new node -/

theorem Linked.new {g : Graph} (hg : Linked g) (key : String) (isDir : Bool)
    (value : Option String) : Linked (g.new key isDir value).2 where
  root := by
    obtain ⟨v, h, hv⟩ := hg.root
    exact ⟨v, get?_new_of_some key isDir value h, hv⟩
  sound := by
    intro i v h
    rw [get?_new] at h
    split_ifs at h
    · rw [← Option.some.inj h]
      exact Vertex.sound_new key isDir value
    · exact hg.sound i v h
  child := by
    intro d v n c h hm
    rw [get?_new] at h
    split_ifs at h
    · rw [← Option.some.inj h] at hm
      simp [Vertex.new] at hm
    · obtain ⟨w, hc, hw⟩ := hg.child d v n c h hm
      exact ⟨w, get?_new_of_some key isDir value hc, hw⟩

/-! ### A child is added -/

/-- The node `c`, which is `w`, may become the child `n` of the directory `d`, which is `v`: its key
is the one for that place, and no directory holds it. -/
structure Attachable (g : Graph) (d c : Nat) (v w : Vertex) (n : String) : Prop where
  directory : g.get? d = some v
  isDir : v.isDir = true
  node : g.get? c = some w
  segment : Path.IsSegment n
  key : w.key = Path.join v.key n
  parent : w.parent = none

namespace Attachable

variable {g g' : Graph} {d c : Nat} {v w : Vertex} {n : String} (h : Attachable g d c v w n)
include h

theorem name : w.name = n := by
  rw [Vertex.name, h.key, Path.baseName_join h.segment.2.1]

theorem ne : c ≠ d := by
  rintro rfl
  have hvw : v = w := Option.some.inj (h.directory.symm.trans h.node)
  exact Path.join_ne_self h.segment.1 v.key (by rw [← h.key, hvw])

theorem ne_root (hg : Linked g) : c ≠ rootId := by
  rintro rfl
  obtain ⟨r, hr, hk, -, -⟩ := hg.root
  rw [h.node, Option.some.injEq] at hr
  exact Path.join_ne_root h.segment.1 v.key (by rw [← h.key, hr, hk])

theorem child?_ne (hg : Linked g) (e : Nat) (m : String) : g.child? e m ≠ some c := by
  intro he
  have hp := hg.parent_of_child? he h.node
  rw [h.parent] at hp
  cases hp

theorem addChild_ok (hg : Linked g) : ∃ g', g.addChild d c = .ok g' ∧ Attached g g' d c v w := by
  refine Graph.addChild_ok h.directory h.isDir h.node h.ne ?_
  rw [← hg.child?_eq_lookup h.directory]
  exact hg.child?_ne_self

end Attachable

section Attached

variable {g g' : Graph} {d c : Nat} {v w : Vertex} {n : String} (hg : Linked g)
  (h : Attachable g d c v w n) (ha : Attached g g' d c v w)
include hg h ha

/-- A child in another place than the new one's keeps its key and its link. -/
theorem Attached.held {e x : Nat} {m : String} {u : Vertex} (hu : g.get? e = some u)
    (hm : (m, x) ∈ u.children) (hne : ¬ (e = d ∧ m = n)) :
    ∃ z, g'.get? x = some z ∧ z.key = Path.join u.key m ∧ z.parent = some e := by
  obtain ⟨y, hx, hk, hp⟩ := hg.child e u m x hu hm
  have he := hg.child?_eq_some_iff.mpr ⟨u, hu, hm⟩
  have hxc : x ≠ c := by rintro rfl; exact h.child?_ne hg e m he
  rw [ha x, if_neg hxc]
  split_ifs with h1 h2
  · subst h1
    have hy : v = y := Option.some.inj (h.directory.symm.trans hx)
    exact ⟨_, rfl, by rw [← hk, ← hy], by rw [← hp, ← hy]⟩
  · rw [h.name, ← hg.child?_eq_lookup h.directory] at h2
    exact absurd (hg.child?_inj he h2) hne
  · exact ⟨y, hx, hk, hp⟩

theorem Linked.attached : Linked g' where
  root := by
    obtain ⟨r, hr, hk, hdir, hp⟩ := hg.root
    rw [ha rootId, if_neg (Ne.symm (h.ne_root hg))]
    split_ifs with h1 h2
    · subst h1
      have hv : v = r := Option.some.inj (h.directory.symm.trans hr)
      exact ⟨_, rfl, by rw [← hk, ← hv], h.isDir, by rw [← hp, ← hv]⟩
    · rw [← hg.child?_eq_lookup h.directory] at h2
      exact absurd h2 hg.child?_ne_root
    · exact ⟨r, hr, hk, hdir, hp⟩
  sound := by
    intro i u hi
    rw [ha i] at hi
    split_ifs at hi with h1 h2 h3
    · have hw := hg.sound c w h.node
      rw [← Option.some.inj hi]
      exact ⟨hw.value_of_dir, hw.children_of_leaf, hw.nodup, hw.segment⟩
    · have hv := hg.sound d v h.directory
      rw [← Option.some.inj hi]
      refine ⟨hv.value_of_dir, fun hf => ?_, nodup_bind hv.nodup, fun m x hm => ?_⟩
      · have hf : v.isDir = false := hf
        rw [h.isDir] at hf
        cases hf
      · rw [mem_iff_lookup (nodup_bind hv.nodup), lookup_bind] at hm
        split_ifs at hm with hmn
        · rw [hmn, h.name]
          exact h.segment
        · exact hv.segment m x ((mem_iff_lookup hv.nodup).mpr hm)
    · obtain ⟨u', hu, rfl⟩ := Option.map_eq_some_iff.mp hi
      have hu := hg.sound i u' hu
      exact ⟨hu.value_of_dir, hu.children_of_leaf, hu.nodup, hu.segment⟩
    · exact hg.sound i u hi
  child := by
    intro e u m x he hm
    rw [ha e] at he
    split_ifs at he with h1 h2 h3
    · subst h1
      obtain rfl := Option.some.inj he
      have hheld := ha.held hg h h.node hm fun hh => h.ne hh.1
      exact hheld
    · subst h2
      obtain rfl := Option.some.inj he
      have hv := hg.sound e v h.directory
      have hm : (m, x) ∈ bind w.name c v.children := hm
      rw [mem_iff_lookup (nodup_bind hv.nodup), lookup_bind, h.name] at hm
      split_ifs at hm with hmn
      · obtain rfl := Option.some.inj hm
        refine ⟨{ w with parent := some e }, by rw [ha c, if_pos rfl], ?_, rfl⟩
        rw [hmn]
        exact h.key
      · have hheld := ha.held hg h h.directory ((mem_iff_lookup hv.nodup).mpr hm)
          fun hh => hmn hh.2
        exact hheld
    · obtain ⟨u', hu', rfl⟩ := Option.map_eq_some_iff.mp he
      have hheld := ha.held hg h hu' hm fun hh => h2 hh.1
      exact hheld
    · exact ha.held hg h he hm fun hh => h2 hh.1

theorem Linked.child?_attached (e : Nat) (m : String) :
    g'.child? e m = if e = d ∧ m = n then some c else g.child? e m := by
  have hg' := hg.attached h ha
  by_cases hed : e = d
  · subst hed
    have hget : g'.get? e = some { v with children := bind w.name c v.children } := by
      rw [ha e, if_neg (Ne.symm h.ne), if_pos rfl]
    rw [hg'.child?_eq_lookup hget, lookup_bind, h.name, hg.child?_eq_lookup h.directory]
    simp
  · rw [if_neg fun hh => hed hh.1]
    by_cases hec : e = c
    · subst hec
      have hget : g'.get? e = some { w with parent := some d } := by rw [ha e, if_pos rfl]
      rw [hg'.child?_eq_lookup hget, hg.child?_eq_lookup h.node]
    · have hget := ha e
      rw [if_neg hec, if_neg hed] at hget
      split_ifs at hget
      · cases hu : g.get? e with
        | none => simp [child?, hget, hu]
        | some u =>
          rw [hu, Option.map_some] at hget
          rw [hg'.child?_eq_lookup hget, hg.child?_eq_lookup hu]
      · unfold child?
        rw [hget]

end Attached

/-! ### A child is removed -/

theorem Linked.removeChild_detached {g : Graph} (hg : Linked g) {d c : Nat} {n : String}
    {v : Vertex} (hd : g.get? d = some v) (hc : g.child? d n = some c) :
    Detached g (g.removeChild d n).2 d c v n := by
  obtain ⟨v', -, hd', -, hdir, -, -, -⟩ := hg.of_child? hc
  rw [hd, Option.some.injEq] at hd'
  subst hd'
  have hcd : c ≠ d := by
    rintro rfl
    exact hg.child?_ne_self hc
  rw [hg.child?_eq_lookup hd] at hc
  exact Graph.removeChild_detached hd hdir hc hcd

section Detached

variable {g g' : Graph} {d c : Nat} {v : Vertex} {n : String} (hg : Linked g)
  (hd : g.get? d = some v) (hc : g.child? d n = some c) (h : Detached g g' d c v n)
include hg hd hc h

/-- A child in another place than the removed one's keeps its key and its link. -/
theorem Detached.held {e x : Nat} {m : String} {u : Vertex} (hu : g.get? e = some u)
    (hm : (m, x) ∈ u.children) (hne : ¬ (e = d ∧ m = n)) :
    ∃ z, g'.get? x = some z ∧ z.key = Path.join u.key m ∧ z.parent = some e := by
  obtain ⟨y, hx, hk, hp⟩ := hg.child e u m x hu hm
  have he := hg.child?_eq_some_iff.mpr ⟨u, hu, hm⟩
  rw [h x]
  split_ifs with h1 h2
  · subst h1
    exact absurd (hg.child?_inj he hc) hne
  · subst h2
    have hy : v = y := Option.some.inj (hd.symm.trans hx)
    exact ⟨_, rfl, by rw [← hk, ← hy], by rw [← hp, ← hy]⟩
  · exact ⟨y, hx, hk, hp⟩

theorem Linked.detached : Linked g' where
  root := by
    obtain ⟨r, hr, hk, hdir, hp⟩ := hg.root
    rw [h rootId]
    split_ifs with h1 h2
    · rw [← h1] at hc
      exact absurd hc hg.child?_ne_root
    · subst h2
      have hv : v = r := Option.some.inj (hd.symm.trans hr)
      exact ⟨_, rfl, by rw [← hk, ← hv], by rw [← hdir, ← hv], by rw [← hp, ← hv]⟩
    · exact ⟨r, hr, hk, hdir, hp⟩
  sound := by
    intro i u hi
    rw [h i] at hi
    split_ifs at hi with h1 h2
    · obtain ⟨u', hu, rfl⟩ := Option.map_eq_some_iff.mp hi
      have hu := hg.sound i u' hu
      exact ⟨hu.value_of_dir, hu.children_of_leaf, hu.nodup, hu.segment⟩
    · have hv := hg.sound d v hd
      rw [← Option.some.inj hi]
      refine ⟨hv.value_of_dir, fun hf => ?_, nodup_filter_ne hv.nodup, fun m x hm => ?_⟩
      · have hf : v.isDir = false := hf
        simp [hv.children_of_leaf hf]
      · exact hv.segment m x (List.mem_of_mem_filter hm)
    · exact hg.sound i u hi
  child := by
    intro e u m x he hm
    rw [h e] at he
    split_ifs at he with h1 h2
    · obtain ⟨u', hu', rfl⟩ := Option.map_eq_some_iff.mp he
      have hed : e ≠ d := by
        rintro rfl
        rw [← h1] at hc
        exact hg.child?_ne_self hc
      have hheld := h.held hg hd hc hu' hm fun hh => hed hh.1
      exact hheld
    · subst h2
      obtain rfl := Option.some.inj he
      have hm : (m, x) ∈ v.children.filter (·.1 ≠ n) := hm
      rw [List.mem_filter] at hm
      have hheld := h.held hg hd hc hd hm.1 fun hh => by simp [hh.2] at hm
      exact hheld
    · exact h.held hg hd hc he hm fun hh => h2 hh.1

theorem Linked.child?_detached (e : Nat) (m : String) :
    g'.child? e m = if e = d ∧ m = n then none else g.child? e m := by
  have hg' := hg.detached hd hc h
  have hdc : d ≠ c := by
    rintro rfl
    exact hg.child?_ne_self hc
  by_cases hed : e = d
  · subst hed
    have hget : g'.get? e = some { v with children := v.children.filter (·.1 ≠ n) } := by
      rw [h e, if_neg hdc, if_pos rfl]
    rw [hg'.child?_eq_lookup hget, lookup_filter_ne, hg.child?_eq_lookup hd]
    simp
  · rw [if_neg fun hh => hed hh.1]
    have hget := h e
    rw [if_neg hed] at hget
    split_ifs at hget
    · cases hu : g.get? e with
      | none => simp [child?, hget, hu]
      | some u =>
        rw [hu, Option.map_some] at hget
        rw [hg'.child?_eq_lookup hget, hg.child?_eq_lookup hu]
    · unfold child?
      rw [hget]

end Detached

/-! ### A leaf gets another value -/

section SetValue

variable {g : Graph} {i : Nat} {v : Vertex}

theorem get?_setValue (hi : g.get? i = some v) (value : Option String) (j : Nat) :
    (g.setValue i value).get? j = if j = i then some { v with value := value } else g.get? j := by
  rw [get?_setValue_map]
  by_cases h : j = i
  · subst h; simp [hi]
  · simp [h]

theorem Linked.setValue (hg : Linked g) (hi : g.get? i = some v) (hleaf : v.isDir = false)
    (value : Option String) : Linked (g.setValue i value) where
  root := by
    obtain ⟨r, hr, hk, hdir, hp⟩ := hg.root
    rw [get?_setValue hi]
    split_ifs with h
    · subst h
      rw [hi, Option.some.injEq] at hr
      rw [hr, hdir] at hleaf
      cases hleaf
    · exact ⟨r, hr, hk, hdir, hp⟩
  sound := by
    intro j u hj
    rw [get?_setValue hi] at hj
    split_ifs at hj with h
    · have hv := hg.sound i v hi
      rw [← Option.some.inj hj]
      refine ⟨fun hf => ?_, hv.children_of_leaf, hv.nodup, hv.segment⟩
      have hf : v.isDir = true := hf
      rw [hleaf] at hf
      cases hf
    · exact hg.sound j u hj
  child := by
    intro d u n c hd hm
    have key : ∃ u', g.get? d = some u' ∧ u'.key = u.key ∧ u'.children = u.children := by
      rw [get?_setValue hi] at hd
      split_ifs at hd with h
      · subst h
        exact ⟨v, hi, by rw [← Option.some.inj hd], by rw [← Option.some.inj hd]⟩
      · exact ⟨u, hd, rfl, rfl⟩
    obtain ⟨u', hu, hk, hcs⟩ := key
    obtain ⟨w, hc, hwk, hwp⟩ := hg.child d u' n c hu (by rw [hcs]; exact hm)
    rw [get?_setValue hi]
    split_ifs with h
    · subst h
      have hvw : v = w := Option.some.inj (hi.symm.trans hc)
      exact ⟨_, rfl, by rw [← hk, ← hwk, hvw], by rw [← hwp, hvw]⟩
    · exact ⟨w, hc, by rw [hwk, hk], hwp⟩

end SetValue

end Graph

end TreeStore
