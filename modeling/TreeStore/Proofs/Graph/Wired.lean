import TreeStore.Proofs.Graph.Cells

/-!
# Links of shared nodes

In a graph at large one node may be held by several directories, and its link names at most one of
them.  What still holds is `Wired`: a child is held under its own name, and a link names a directory
that holds the node.  It is said of three things only: which child a name stands for (`child?`), and
which name and which link a node has (`name?`, `parent?`).

Adding and removing a child both change the children of one directory and clear or set some links;
`Rewired` is what the two have in common.

* `rewired_addChild`, `rewired_removeChild`: what the two operations do, whatever is shared.
* `Wired.new`, `Wired.addChild`, `Wired.removeChild`, `Wired.setValue`: each operation keeps it.
-/

namespace TreeStore.Graph

variable {g g' : Graph} {d c i p : Nat} {n name : String} {v w : Vertex}

/-- The name of a node. -/
def name? (g : Graph) (i : Nat) : Option String := (g.get? i).map Vertex.name

/-- The node that a node is linked to as its parent. -/
def parent? (g : Graph) (i : Nat) : Option Nat := (g.get? i).bind Vertex.parent

/-- The directory holds the node, under some name. -/
def Holds (g : Graph) (d c : Nat) : Prop := ∃ n, g.child? d n = some c

theorem parent?_of_get? (h : g.get? i = some v) : g.parent? i = v.parent := by
  rw [parent?, h, Option.bind_some]

theorem name?_of_get? (h : g.get? i = some v) : g.name? i = some v.name := by
  rw [name?, h, Option.map_some]

theorem child?_of_get? (h : g.get? d = some v) (n : String) :
    g.child? d n = if v.isDir then v.children.lookup n else none := by
  rw [child?, h, Option.bind_some]

theorem get?_of_child? (h : g.child? d n = some c) :
    ∃ v, g.get? d = some v ∧ v.isDir = true ∧ v.children.lookup n = some c := by
  obtain ⟨v, hd, hv⟩ := Option.bind_eq_some_iff.mp h
  cases hdir : v.isDir with
  | true => exact ⟨v, hd, hdir, by simpa [hdir] using hv⟩
  | false => simp [hdir] at hv

/-- Every child is there and is held under its own name; the directory that a node is linked to
holds it. -/
structure Wired (g : Graph) : Prop where
  nodup : ∀ d v, g.get? d = some v → (v.children.map (·.1)).Nodup
  childless : ∀ d v, g.get? d = some v → v.isDir = false → v.children = []
  named : ∀ d n c, g.child? d n = some c → g.name? c = some n
  linked : ∀ i p, g.parent? i = some p → ∃ n, g.name? i = some n ∧ g.child? p n = some i

namespace Wired

variable (hg : Wired g)
include hg

theorem mem_children_iff (h : g.get? d = some v) :
    (n, c) ∈ v.children ↔ g.child? d n = some c := by
  rw [mem_iff_lookup (hg.nodup d v h), child?_of_get? h]
  cases hdir : v.isDir with
  | true => rfl
  | false => simp [hg.childless d v h hdir]

/-- A directory holds a node under one name only. -/
theorem name_unique (h : g.child? d n = some c) (h' : g.child? i name = some c) : n = name :=
  Option.some.inj ((hg.named d n c h).symm.trans (hg.named i name c h'))

theorem get?_of_held (h : g.Holds d c) : ∃ w, g.get? c = some w := by
  obtain ⟨n, hn⟩ := h
  exact (Option.map_eq_some_iff.mp (hg.named d n c hn)).imp fun _ => And.left

end Wired

theorem wired_empty : Wired {} where
  nodup _ _ h := by cases h
  childless _ _ h := by cases h
  named _ _ _ h := by cases h
  linked _ _ h := by cases h

/-! ### Adding and removing -/

/-- The directory `d`, which is `v`, got other children, and the links of nodes were set anew; all
else stayed. -/
def Rewired (g g' : Graph) (d : Nat) (children : List (String × Nat))
    (link : Nat → Option Nat → Option Nat) : Prop :=
  ∀ j, g'.get? j = (g.get? j).map fun x =>
    { x with children := if j = d then children else x.children, parent := link j x.parent }

section Rewired

variable {children : List (String × Nat)} {link : Nat → Option Nat → Option Nat}
  (h : Rewired g g' d children link)
include h

theorem Rewired.name? (j : Nat) : g'.name? j = g.name? j := by
  rw [Graph.name?, Graph.name?, h j, Option.map_map]
  rfl

theorem Rewired.parent? (j : Nat) : g'.parent? j = (g.get? j).bind fun x => link j x.parent := by
  rw [Graph.parent?, h j]
  cases g.get? j <;> rfl

theorem Rewired.child? (hd : g.get? d = some v) (hdir : v.isDir = true) (e : Nat) (n : String) :
    g'.child? e n = if e = d then children.lookup n else g.child? e n := by
  unfold Graph.child?
  rw [h e]
  split_ifs with he
  · subst he
    simp [hd, hdir]
  · cases g.get? e <;> rfl

theorem Rewired.get? {j : Nat} {x : Vertex} (hx : g'.get? j = some x) :
    ∃ y, g.get? j = some y ∧ x.isDir = y.isDir ∧
      x.children = if j = d then children else y.children := by
  rw [h j] at hx
  obtain ⟨y, hy, rfl⟩ := Option.map_eq_some_iff.mp hx
  exact ⟨y, hy, rfl, rfl⟩

/-- The names of children stay distinct, and only a directory gets any. -/
theorem Rewired.nodup (hg : Wired g) (hch : (children.map (·.1)).Nodup) (j : Nat) (x : Vertex)
    (hx : g'.get? j = some x) : (x.children.map (·.1)).Nodup := by
  obtain ⟨y, hy, -, hchildren⟩ := h.get? hx
  rw [hchildren]
  split_ifs
  · exact hch
  · exact hg.nodup j y hy

theorem Rewired.childless (hg : Wired g) (hd : g.get? d = some v) (hdir : v.isDir = true) (j : Nat)
    (x : Vertex) (hx : g'.get? j = some x) (hleaf : x.isDir = false) : x.children = [] := by
  obtain ⟨y, hy, hkind, hchildren⟩ := h.get? hx
  rw [hchildren]
  split_ifs with hj
  · subst hj
    obtain rfl := Option.some.inj (hy.symm.trans hd)
    rw [← hkind, hleaf] at hdir
    cases hdir
  · exact hg.childless j y hy (hkind.symm.trans hleaf)

end Rewired

/-! ### A child is added -/

theorem get?_update_children (g : Graph) (d : Nat)
    (f : List (String × Nat) → List (String × Nat)) (j : Nat) :
    (g.update d fun v => { v with children := f v.children }).get? j = (g.get? j).map fun x =>
      { x with children := if j = d then f x.children else x.children } := by
  rw [get?_update]
  by_cases hj : j = d
  · simp only [hj, if_true]
  · simp only [hj, Ne.symm hj, if_false]
    exact (Option.map_id' ..).symm

theorem get?_update_parent (g : Graph) (c : Nat) (p : Option Nat) (j : Nat) :
    (g.update c fun v => { v with parent := p }).get? j = (g.get? j).map fun x =>
      { x with parent := if j = c then p else x.parent } := by
  rw [get?_update]
  by_cases hj : j = c
  · simp only [hj, if_true]
  · simp only [hj, Ne.symm hj, if_false]
    exact (Option.map_id' ..).symm

/-- The node whose place `c` takes loses its link, unless it is `c` itself. -/
def displace (g : Graph) (c : Nat) : Option Nat → Graph
  | none => g
  | some old => if old = c then g else g.orphan old

theorem get?_displace (g : Graph) (c : Nat) (old : Option Nat) (j : Nat) :
    (g.displace c old).get? j = (g.get? j).map fun x =>
      { x with parent := if j ≠ c ∧ old = some j then none else x.parent } := by
  cases old with
  | none => simp [displace]
  | some old =>
    by_cases hold : old = c
    · have hne : ¬(j ≠ c ∧ some old = some j) := fun h =>
        h.1 ((Option.some.inj h.2).symm.trans hold)
      simp only [displace, if_pos hold, if_neg hne, Option.map_id']
    · have hiff : (j ≠ c ∧ some old = some j) ↔ j = old := by
        rw [Option.some.injEq]
        exact ⟨fun h => h.2.symm, fun h => ⟨fun hj => hold (h.symm.trans hj), h.symm⟩⟩
      simp only [displace, if_neg hold, hiff]
      exact get?_update_parent g old none j

theorem addChild_eq (hd : g.get? d = some v) (hdir : v.isDir = true) (hc : g.get? c = some w) :
    g.addChild d c = .ok (((g.displace c (v.children.lookup w.name)).update d fun v =>
      { v with children := bind w.name c v.children }).update c fun w =>
        { w with parent := some d }) := by
  simp only [addChild, hd, hc, if_pos hdir]
  cases v.children.lookup w.name <;> rfl

/-- Adding a node to a directory: it is linked to the directory, and the one whose place it takes
is linked to nobody, wherever its link went before. -/
theorem rewired_addChild (hd : g.get? d = some v) (hdir : v.isDir = true)
    (hc : g.get? c = some w) :
    ∃ g', g.addChild d c = .ok g' ∧ Rewired g g' d (bind w.name c v.children) fun j link =>
      if j = c then some d else if g.child? d w.name = some j then none else link := by
  have hlookup : g.child? d w.name = v.children.lookup w.name := by
    rw [child?_of_get? hd, if_pos hdir]
  refine ⟨_, addChild_eq hd hdir hc, fun j => ?_⟩
  rw [hlookup, get?_update_parent, get?_update_children, get?_displace]
  cases hj : g.get? j with
  | none => rfl
  | some x =>
    have hx (h : j = d) : x = v := Option.some.inj (hj.symm.trans (h ▸ hd))
    simp only [Option.map_some, Option.some.injEq, Vertex.mk.injEq, true_and]
    refine ⟨?_, ?_⟩
    · split_ifs with h
      · rw [hx h]
      · rfl
    · split_ifs <;> simp_all

/-- Only a directory takes a child, and both are there. -/
theorem rewired_of_addChild (h : g.addChild d c = .ok g') :
    ∃ v w, g.get? d = some v ∧ v.isDir = true ∧ g.get? c = some w ∧
      Rewired g g' d (bind w.name c v.children) fun j link =>
        if j = c then some d else if g.child? d w.name = some j then none else link := by
  have hthere : ∃ v w, g.get? d = some v ∧ v.isDir = true ∧ g.get? c = some w := by
    unfold addChild at h
    cases hd : g.get? d with
    | none => simp [hd] at h
    | some v =>
      cases hc : g.get? c with
      | none => simp [hd, hc] at h
      | some w =>
        cases hdir : v.isDir with
        | true => exact ⟨v, w, rfl, hdir, rfl⟩
        | false => simp [hd, hc, hdir] at h
  obtain ⟨v, w, hd, hdir, hc⟩ := hthere
  obtain ⟨_, hok, hr⟩ := rewired_addChild hd hdir hc
  obtain rfl := Except.ok.inj (hok.symm.trans h)
  exact ⟨v, w, hd, hdir, hc, hr⟩

section AddChild

variable (h : g.addChild d c = .ok g')
include h

theorem name?_addChild (j : Nat) : g'.name? j = g.name? j := by
  obtain ⟨v, w, -, -, -, hr⟩ := rewired_of_addChild h
  exact hr.name? j

theorem exists_name?_of_addChild : ∃ n, g.name? c = some n := by
  obtain ⟨-, w, -, -, hc, -⟩ := rewired_of_addChild h
  exact ⟨w.name, name?_of_get? hc⟩

theorem child?_addChild (hn : g.name? c = some n) (e : Nat) (m : String) :
    g'.child? e m = if e = d ∧ m = n then some c else g.child? e m := by
  obtain ⟨v, w, hd, hdir, hc, hr⟩ := rewired_of_addChild h
  obtain rfl := Option.some.inj ((name?_of_get? hc).symm.trans hn)
  rw [hr.child? hd hdir, lookup_bind]
  by_cases he : e = d
  · simp only [he, if_true, true_and, child?_of_get? hd, hdir]
  · simp only [he, if_false, false_and]

theorem parent?_addChild (hn : g.name? c = some n) (j : Nat) :
    g'.parent? j =
      if j = c then some d else if g.child? d n = some j then none else g.parent? j := by
  obtain ⟨v, w, hd, hdir, hc, hr⟩ := rewired_of_addChild h
  obtain rfl := Option.some.inj ((name?_of_get? hc).symm.trans hn)
  rw [hr.parent?, Graph.parent?]
  cases hj : g.get? j with
  | some x => rfl
  | none =>
    have hjc : j ≠ c := by
      rintro rfl
      rw [hj] at hc
      cases hc
    rw [if_neg hjc]
    exact (ite_self none).symm

end AddChild

/-! ### A child is removed -/

/-- Taking a child out of a directory: the directory no longer knows the name, and the child is
linked to nobody, wherever its link went before. -/
theorem rewired_removeChild (hd : g.get? d = some v) (hc : g.child? d name = some c) :
    (g.removeChild d name).1 = some c ∧
      Rewired g (g.removeChild d name).2 d (v.children.filter (·.1 ≠ name)) fun j link =>
        if j = c then none else link := by
  have hlookup : ((g.get? d).bind fun v =>
      if v.isDir then v.children.lookup name else none) = some c := hc
  simp only [removeChild, hlookup]
  refine ⟨trivial, fun j => ?_⟩
  rw [orphan, get?_update_parent, get?_update_children]
  cases hj : g.get? j with
  | none => rfl
  | some x =>
    have hx (h : j = d) : x = v := Option.some.inj (hj.symm.trans (h ▸ hd))
    simp only [Option.map_some, Option.some.injEq, Vertex.mk.injEq, true_and, and_true]
    split_ifs with h
    · rw [hx h]
    · rfl

theorem removeChild_none (h : g.child? d name = none) : g.removeChild d name = (none, g) := by
  have hlookup : ((g.get? d).bind fun v =>
      if v.isDir then v.children.lookup name else none) = none := h
  simp only [removeChild, hlookup]

theorem name?_removeChild (g : Graph) (d : Nat) (name : String) (j : Nat) :
    (g.removeChild d name).2.name? j = g.name? j := by
  cases hc : g.child? d name with
  | none => rw [removeChild_none hc]
  | some c =>
    obtain ⟨v, hd, -, -⟩ := get?_of_child? hc
    exact (rewired_removeChild hd hc).2.name? j

theorem child?_removeChild (g : Graph) (d : Nat) (name : String) (e : Nat) (m : String) :
    (g.removeChild d name).2.child? e m = if e = d ∧ m = name then none else g.child? e m := by
  cases hc : g.child? d name with
  | none =>
    rw [removeChild_none hc]
    split_ifs with h
    · rw [h.1, h.2, hc]
    · rfl
  | some c =>
    obtain ⟨v, hd, hdir, -⟩ := get?_of_child? hc
    rw [(rewired_removeChild hd hc).2.child? hd hdir, lookup_filter_ne]
    by_cases he : e = d
    · simp only [he, if_true, true_and, child?_of_get? hd, hdir]
    · simp only [he, if_false, false_and]

theorem parent?_removeChild (g : Graph) (d : Nat) (name : String) (j : Nat) :
    (g.removeChild d name).2.parent? j =
      if g.child? d name = some j then none else g.parent? j := by
  cases hc : g.child? d name with
  | none => rw [removeChild_none hc, if_neg (Option.some_ne_none j).symm]
  | some c =>
    obtain ⟨v, hd, -, -⟩ := get?_of_child? hc
    rw [(rewired_removeChild hd hc).2.parent?, parent?]
    simp only [Option.some.injEq, eq_comm (b := c)]
    cases g.get? j with
    | some x => rfl
    | none => exact (ite_self none).symm

/-! ### Every operation keeps the links -/

section New

variable (g) (key : String) (isDir : Bool) (value : Option String)

theorem name?_new (j : Nat) :
    (g.new key isDir value).2.name? j =
      if j = g.vertices.length then some (Path.baseName key) else g.name? j := by
  rw [name?, get?_new]
  split_ifs <;> rfl

theorem parent?_new (j : Nat) : (g.new key isDir value).2.parent? j = g.parent? j := by
  rw [parent?, parent?, get?_new]
  split_ifs with h
  · rw [h, get?_length]
    rfl
  · rfl

end New

theorem ne_length_of_name? (h : g.name? c = some n) : c ≠ g.vertices.length := by
  rintro rfl
  rw [name?, get?_length] at h
  cases h

theorem Wired.new (hg : Wired g) (key : String) (isDir : Bool) (value : Option String) :
    Wired (g.new key isDir value).2 where
  nodup d v hd := by
    rw [get?_new] at hd
    split_ifs at hd
    · rw [← Option.some.inj hd]
      exact List.nodup_nil
    · exact hg.nodup d v hd
  childless d v hd hleaf := by
    rw [get?_new] at hd
    split_ifs at hd
    · rw [← Option.some.inj hd]
      rfl
    · exact hg.childless d v hd hleaf
  named d n c hc := by
    rw [child?_new] at hc
    have hname := hg.named d n c hc
    rw [name?_new, if_neg (ne_length_of_name? hname), hname]
  linked i p hp := by
    rw [parent?_new] at hp
    obtain ⟨n, hname, hc⟩ := hg.linked i p hp
    refine ⟨n, ?_, (child?_new ..).trans hc⟩
    rw [name?_new, if_neg (ne_length_of_name? hname), hname]

theorem Wired.addChild (hg : Wired g) (h : g.addChild d c = .ok g') : Wired g' := by
  obtain ⟨v, w, hd, hdir, hc, hr⟩ := rewired_of_addChild h
  have hn : g.name? c = some w.name := name?_of_get? hc
  refine ⟨hr.nodup hg (nodup_bind (hg.nodup d v hd)), hr.childless hg hd hdir, ?_, ?_⟩
  · intro e m j hj
    rw [child?_addChild h hn] at hj
    rw [name?_addChild h]
    split_ifs at hj with he
    · rw [← Option.some.inj hj, he.2, hn]
    · exact hg.named e m j hj
  · intro i p hp
    rw [parent?_addChild h hn] at hp
    simp only [name?_addChild h, child?_addChild h hn]
    split_ifs at hp with hi hold
    · obtain rfl := Option.some.inj hp
      exact ⟨w.name, hi ▸ hn, by rw [if_pos ⟨rfl, rfl⟩, hi]⟩
    · obtain ⟨m, hname, hm⟩ := hg.linked i p hp
      refine ⟨m, hname, ?_⟩
      -- the place that was taken is not the one of this node
      rw [if_neg, hm]
      rintro ⟨rfl, rfl⟩
      exact hold hm

theorem Wired.removeChild (hg : Wired g) (d : Nat) (name : String) :
    Wired (g.removeChild d name).2 := by
  cases hc : g.child? d name with
  | none =>
    rw [removeChild_none hc]
    exact hg
  | some c =>
    obtain ⟨v, hd, hdir, -⟩ := get?_of_child? hc
    obtain ⟨-, hr⟩ := rewired_removeChild hd hc
    refine ⟨hr.nodup hg (nodup_filter_ne (hg.nodup d v hd)), hr.childless hg hd hdir, ?_, ?_⟩
    · intro e m j hj
      rw [child?_removeChild] at hj
      rw [name?_removeChild]
      split_ifs at hj
      exact hg.named e m j hj
    · intro i p hp
      rw [parent?_removeChild] at hp
      simp only [name?_removeChild, child?_removeChild]
      split_ifs at hp with hi
      obtain ⟨m, hname, hm⟩ := hg.linked i p hp
      refine ⟨m, hname, ?_⟩
      rw [if_neg, hm]
      rintro ⟨rfl, rfl⟩
      exact hi hm

section SetValue

variable (g) (i : Nat) (value : Option String)

theorem name?_setValue (j : Nat) : (g.setValue i value).name? j = g.name? j := by
  rw [name?, name?, get?_setValue_map, Option.map_map]
  rfl

theorem parent?_setValue (j : Nat) : (g.setValue i value).parent? j = g.parent? j := by
  rw [parent?, parent?, get?_setValue_map]
  cases g.get? j <;> rfl

end SetValue

theorem Wired.setValue (hg : Wired g) (i : Nat) (value : Option String) :
    Wired (g.setValue i value) where
  nodup d v hd := by
    rw [get?_setValue_map] at hd
    obtain ⟨x, hx, rfl⟩ := Option.map_eq_some_iff.mp hd
    exact hg.nodup d x hx
  childless d v hd hleaf := by
    rw [get?_setValue_map] at hd
    obtain ⟨x, hx, rfl⟩ := Option.map_eq_some_iff.mp hd
    exact hg.childless d x hx hleaf
  named d n c hc := by
    rw [child?_setValue] at hc
    rw [name?_setValue]
    exact hg.named d n c hc
  linked j p hp := by
    rw [parent?_setValue] at hp
    simp only [name?_setValue, child?_setValue]
    exact hg.linked j p hp

end TreeStore.Graph
