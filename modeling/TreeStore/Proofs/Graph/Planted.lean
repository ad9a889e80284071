import TreeStore.Proofs.Graph.Acyclic

/-!
# Trees planted in a graph

Planting a tree adds one node for each of its nodes and touches nothing else.  The new nodes have
consecutive numbers, each directory before what it holds, and `Forest` says of such a range of
numbers that it is a list of trees: every node is linked to the directory that holds it, under its
own name, and nothing shares.

* `plant_forest`: what planting gives;
* `Forest.map_unfold`: the trees can be read off again;
* `Wired.clone`: a copy, which is a planted view, leaves the links of a graph in order.
-/

namespace TreeStore.Graph

variable {g g' g'' : Graph} {i j c d : Nat} {n : String} {v w x : Vertex}

/-- Every node of the one graph stands unchanged in the other one, which may have more. -/
def Extends (g g' : Graph) : Prop := ∀ j v, g.get? j = some v → g'.get? j = some v

/-- The nodes from `a` up to `b` are the trees `ts`: their roots are linked to `link` and have the
names and numbers `es`. -/
inductive Forest (g : Graph) :
    Option Nat → List Node → List (String × Nat) → Nat → Nat → Prop
  | nil {link : Option Nat} {a : Nat} : Forest g link [] [] a a
  | leaf {link : Option Nat} {k : String} {value : Option String} {ts : List Node}
      {es : List (String × Nat)} {a b : Nat}
      (here : g.get? a = some { key := k, isDir := false, value := value, parent := link })
      (rest : Forest g link ts es (a + 1) b) :
      Forest g link (.leaf k value :: ts) ((Path.baseName k, a) :: es) a b
  | dir {link : Option Nat} {k : String} {cs ts : List Node} {inner es : List (String × Nat)}
      {a m b : Nat}
      (here : g.get? a =
        some { key := k, isDir := true, value := none, children := inner, parent := link })
      (below : Forest g (some a) cs inner (a + 1) m) (rest : Forest g link ts es m b) :
      Forest g link (.dir k cs :: ts) ((Path.baseName k, a) :: es) a b

/-! ### More nodes -/

theorem get?_of_lt_length (h : j < g.vertices.length) : ∃ v, g.get? j = some v :=
  ⟨_, List.getElem?_eq_getElem h⟩

theorem get?_of_length_le (h : g.vertices.length ≤ j) : g.get? j = none :=
  List.getElem?_eq_none h

theorem length_update (g : Graph) (i : Nat) (f : Vertex → Vertex) :
    (g.update i f).vertices.length = g.vertices.length := List.length_modify ..

namespace Extends

theorem refl (g : Graph) : Extends g g := fun _ _ h => h

theorem trans (h : Extends g g') (h' : Extends g' g'') : Extends g g'' :=
  fun j v hj => h' j v (h j v hj)

theorem length_le (h : Extends g g') : g.vertices.length ≤ g'.vertices.length := by
  rcases Nat.eq_zero_or_pos g.vertices.length with h0 | hpos
  · rw [h0]
    exact Nat.zero_le _
  · obtain ⟨v, hv⟩ := get?_of_lt_length (Nat.sub_lt hpos Nat.one_pos)
    have hlt := lt_length_of_get? (h _ v hv)
    omega

theorem get?_eq (h : Extends g g') (hj : j < g.vertices.length) : g'.get? j = g.get? j := by
  obtain ⟨v, hv⟩ := get?_of_lt_length hj
  rw [hv, h j v hv]

theorem add (g : Graph) (v : Vertex) : Extends g (g.add v).2 := by
  intro j w hj
  rw [get?_add, if_neg (Nat.ne_of_lt (lt_length_of_get? hj)), hj]

/-- A node that is new may still change. -/
theorem update (h : Extends g g') (hi : g.vertices.length ≤ i) (f : Vertex → Vertex) :
    Extends g (g'.update i f) := by
  intro j v hj
  have hlt := lt_length_of_get? hj
  rw [get?_update, if_neg (by omega), h j v hj]

end Extends

/-! ### What a forest is -/

namespace Forest

variable {link : Option Nat} {ts ts' : List Node} {es es' : List (String × Nat)} {a b m : Nat}

theorem le (h : Forest g link ts es a b) : a ≤ b := by
  induction h with
  | nil => exact Nat.le_refl _
  | leaf here rest ih => omega
  | dir here below rest ihbelow ihrest => omega

/-- Only the nodes of its range matter. -/
theorem congr (h : Forest g link ts es a b)
    (hsame : ∀ j, a ≤ j → j < b → g'.get? j = g.get? j) : Forest g' link ts es a b := by
  induction h with
  | nil => exact .nil
  | leaf here rest ih =>
    have := rest.le
    refine .leaf ((hsame _ (Nat.le_refl _) (by omega)).trans here) (ih fun j h1 h2 => ?_)
    exact hsame j (by omega) h2
  | dir here below rest ihbelow ihrest =>
    have hm := below.le
    have hb := rest.le
    refine .dir ((hsame _ (Nat.le_refl _) (by omega)).trans here) (ihbelow fun j h1 h2 => ?_)
      (ihrest fun j h1 h2 => ?_)
    · exact hsame j (by omega) (by omega)
    · exact hsame j (by omega) h2

theorem append (h : Forest g link ts es a m) (h' : Forest g link ts' es' m b) :
    Forest g link (ts ++ ts') (es ++ es') a b := by
  induction h with
  | nil => exact h'
  | leaf here rest ih => exact .leaf here (ih h')
  | dir here below rest ihbelow ihrest => exact .dir here below (ihrest h')

theorem map_name (h : Forest g link ts es a b) : es.map (·.1) = ts.map Node.name := by
  induction h with
  | nil => rfl
  | leaf here rest ih => exact congrArg (_ :: ·) ih
  | dir here below rest ihbelow ihrest => exact congrArg (_ :: ·) ihrest

/-- The trees unfold from their roots again. -/
theorem map_unfold (h : Forest g link ts es a b) {fuel : Nat} (hfuel : b - a ≤ fuel) :
    (es.map fun e => g.unfold fuel e.2) = ts := by
  induction h generalizing fuel with
  | nil => rfl
  | leaf here rest ih =>
    have := rest.le
    obtain ⟨fuel, rfl⟩ : ∃ f, fuel = f + 1 := ⟨fuel - 1, by omega⟩
    rw [List.map_cons, ih (by omega), unfold, here]
    rfl
  | @dir _ _ cs _ inner _ _ _ _ here below rest ihbelow ihrest =>
    have hm := below.le
    have hb := rest.le
    obtain ⟨fuel, rfl⟩ : ∃ f, fuel = f + 1 := ⟨fuel - 1, by omega⟩
    have hinner : (inner.map fun e => g.unfold fuel e.2) = cs := ihbelow (by omega)
    rw [List.map_cons, ihrest (by omega), unfold, here]
    simp only [if_true, hinner]

/-- Each root belongs to a tree of its own, in a range of its own. -/
theorem tree_of_mem (h : Forest g link ts es a b) {e : String × Nat} (he : e ∈ es) :
    ∃ t ∈ ts, t.name = e.1 ∧ ∃ m, a ≤ e.2 ∧ Forest g link [t] [e] e.2 m := by
  induction h with
  | nil => cases he
  | leaf here rest ih =>
    rcases List.mem_cons.mp he with rfl | he
    · exact ⟨_, List.mem_cons_self, rfl, _, Nat.le_refl _, .leaf here .nil⟩
    · obtain ⟨t, ht, hn, m, ha, hm⟩ := ih he
      exact ⟨t, List.mem_cons_of_mem _ ht, hn, m, by omega, hm⟩
  | dir here below rest ihbelow ihrest =>
    have := below.le
    rcases List.mem_cons.mp he with rfl | he
    · exact ⟨_, List.mem_cons_self, rfl, _, Nat.le_refl _, .dir here below .nil⟩
    · obtain ⟨t, ht, hn, m, ha, hm⟩ := ihrest he
      exact ⟨t, List.mem_cons_of_mem _ ht, hn, m, by omega, hm⟩

/-- A single tree: its root, and what is below. -/
theorem single {t : Node} {e : String × Nat} (h : Forest g link [t] [e] e.2 b) :
    ∃ w, g.get? e.2 = some w ∧ w.key = t.key ∧ w.isDir = t.isDir ∧ w.value = t.value ∧
      w.parent = link ∧ Forest g (some e.2) t.children w.children (e.2 + 1) b := by
  cases h with
  | leaf here rest =>
    cases rest
    exact ⟨_, here, rfl, rfl, rfl, rfl, .nil⟩
  | dir here below rest =>
    cases rest
    exact ⟨_, here, rfl, rfl, rfl, rfl, below⟩

/-! ### The nodes of a forest -/

/-- The roots: each under its name, with the link of the forest. -/
theorem root (h : Forest g link ts es a b) {e : String × Nat} (he : e ∈ es) :
    ∃ z, g.get? e.2 = some z ∧ z.name = e.1 ∧ z.parent = link ∧ a ≤ e.2 ∧ e.2 < b := by
  induction h with
  | nil => cases he
  | leaf here rest ih =>
    have := rest.le
    rcases List.mem_cons.mp he with rfl | he
    · exact ⟨_, here, rfl, rfl, Nat.le_refl _, by omega⟩
    · obtain ⟨z, hz, hn, hp, h1, h2⟩ := ih he
      exact ⟨z, hz, hn, hp, by omega, h2⟩
  | dir here below rest ihbelow ihrest =>
    have := below.le
    have := rest.le
    rcases List.mem_cons.mp he with rfl | he
    · exact ⟨_, here, rfl, rfl, Nat.le_refl _, by omega⟩
    · obtain ⟨z, hz, hn, hp, h1, h2⟩ := ihrest he
      exact ⟨z, hz, hn, hp, by omega, h2⟩

/-- A node is well-formed, and the nodes that it holds are linked to it and have later numbers. -/
structure Placed (g : Graph) (j : Nat) (x : Vertex) : Prop where
  childless : x.isDir = false → x.children = []
  nodup : (x.children.map (·.1)).Nodup
  held : ∀ e ∈ x.children, ∃ z, g.get? e.2 = some z ∧ z.name = e.1 ∧ z.parent = some j ∧ j < e.2

theorem placed (h : Forest g link ts es a b) (hts : ∀ t ∈ ts, t.Distinct) (ha : a ≤ j) (hb : j < b)
    (hx : g.get? j = some x) : Placed g j x := by
  induction h with
  | nil => omega
  | leaf here rest ih =>
    rcases Nat.eq_or_lt_of_le ha with rfl | hlt
    · obtain rfl := Option.some.inj (here.symm.trans hx)
      exact ⟨fun _ => rfl, List.nodup_nil, nofun⟩
    · exact ih (fun t ht => hts t (List.mem_cons_of_mem _ ht)) hlt hb
  | @dir link k cs ts inner es a m b here below rest ihbelow ihrest =>
    have htree : (Node.dir k cs).Distinct := hts _ List.mem_cons_self
    rcases Nat.eq_or_lt_of_le ha with rfl | hlt
    · obtain rfl := Option.some.inj (here.symm.trans hx)
      refine ⟨nofun, ?_, fun e he => ?_⟩
      · rw [below.map_name]
        exact htree _ (by rw [Node.subtree_eq]; exact List.mem_cons_self)
      · obtain ⟨z, hz, hn, hp, h1, -⟩ := below.root he
        exact ⟨z, hz, hn, hp, h1⟩
    · rcases Nat.lt_or_ge j m with hjm | hjm
      · exact ihbelow (fun t ht s hs => htree s (Node.mem_subtree_of_child ht hs)) hlt hjm
      · exact ihrest (fun t ht => hts t (List.mem_cons_of_mem _ ht)) hjm hb

/-- A node of a forest is one of the roots, or the directory that it is linked to holds it. -/
theorem root_or_held (h : Forest g link ts es a b) (ha : a ≤ j) (hb : j < b)
    (hx : g.get? j = some x) :
    (x.parent = link ∧ (x.name, j) ∈ es) ∨
      ∃ q y, a ≤ q ∧ q < b ∧ g.get? q = some y ∧ y.isDir = true ∧ x.parent = some q ∧
        (x.name, j) ∈ y.children := by
  induction h with
  | nil => omega
  | leaf here rest ih =>
    rcases Nat.eq_or_lt_of_le ha with rfl | hlt
    · obtain rfl := Option.some.inj (here.symm.trans hx)
      exact .inl ⟨rfl, List.mem_cons_self⟩
    · obtain ⟨hp, hmem⟩ | ⟨q, y, h1, h2, hy⟩ := ih hlt hb
      · exact .inl ⟨hp, List.mem_cons_of_mem _ hmem⟩
      · exact .inr ⟨q, y, by omega, h2, hy⟩
  | @dir link k cs ts inner es a m b here below rest ihbelow ihrest =>
    have hm := below.le
    have hmb := rest.le
    rcases Nat.eq_or_lt_of_le ha with rfl | hlt
    · obtain rfl := Option.some.inj (here.symm.trans hx)
      exact .inl ⟨rfl, List.mem_cons_self⟩
    · rcases Nat.lt_or_ge j m with hjm | hjm
      · obtain ⟨hp, hmem⟩ | ⟨q, y, h1, h2, hy⟩ := ihbelow hlt hjm
        · exact .inr ⟨a, _, Nat.le_refl _, by omega, here, rfl, hp, hmem⟩
        · exact .inr ⟨q, y, by omega, by omega, hy⟩
      · obtain ⟨hp, hmem⟩ | ⟨q, y, h1, h2, hy⟩ := ihrest hjm hb
        · exact .inl ⟨hp, List.mem_cons_of_mem _ hmem⟩
        · exact .inr ⟨q, y, by omega, h2, hy⟩

end Forest

/-! ### Planting -/

/-- Planting a tree in any graph adds a forest of that tree alone. -/
def Plants (t : Node) : Prop := ∀ (g : Graph) (link : Option Nat), ∃ g',
  g.plant link t = (g.vertices.length, g') ∧ Extends g g' ∧
    Forest g' link [t] [(t.name, g.vertices.length)] g.vertices.length g'.vertices.length

theorem length_add (g : Graph) (v : Vertex) :
    (g.add v).2.vertices.length = g.vertices.length + 1 := List.length_append

theorem plantAll_forest {ts : List Node} (hts : ∀ t ∈ ts, Plants t) (g : Graph) (q : Nat) :
    ∃ es g', g.plantAll q ts = (es, g') ∧ Extends g g' ∧
      Forest g' (some q) ts es g.vertices.length g'.vertices.length := by
  induction ts generalizing g with
  | nil => exact ⟨[], g, rfl, .refl g, .nil⟩
  | cons t ts ih =>
    obtain ⟨g₁, h₁, hext₁, hf₁⟩ := hts t List.mem_cons_self g (some q)
    obtain ⟨es, g₂, h₂, hext₂, hf₂⟩ := ih (fun t ht => hts t (List.mem_cons_of_mem _ ht)) g₁
    refine ⟨(t.name, g.vertices.length) :: es, g₂, ?_, hext₁.trans hext₂, ?_⟩
    · rw [plantAll, h₁]
      simp only [h₂]
    · exact (hf₁.congr fun j _ hj => hext₂.get?_eq hj).append hf₂

theorem plant_forest (t : Node) : Plants t := by
  induction t using Node.bottom_up with
  | leaf k value =>
    intro g link
    refine ⟨(g.add { key := k, isDir := false, value := value, parent := link }).2, rfl,
      .add g _, ?_⟩
    rw [length_add]
    exact .leaf (by rw [get?_add, if_pos rfl]) .nil
  | dir k cs ih =>
    intro g link
    generalize hv : ({ key := k, isDir := true, value := none, parent := link } : Vertex) = v
    -- the directory comes first, then its children, and then they are entered in it
    obtain ⟨es, g₂, h₂, hext₂, hf₂⟩ := plantAll_forest ih (g.add v).2 g.vertices.length
    rw [length_add] at hf₂
    refine ⟨g₂.update g.vertices.length fun v => { v with children := es }, ?_,
      ((Extends.add g _).trans hext₂).update (Nat.le_refl _) _, ?_⟩
    · rw [plant, hv]
      simp only [add] at h₂ ⊢
      simp only [h₂]
    · rw [length_update]
      refine .dir ?_ (hf₂.congr fun j hj _ => ?_) .nil
      · rw [get?_update, if_pos rfl, hext₂ _ v (by rw [get?_add, if_pos rfl]), ← hv]
        rfl
      · rw [get?_update, if_neg (by omega)]

/-! ### Copies -/

/-- What a copy adds, wherever it is taken: a forest of one tree, linked to nothing. -/
theorem clone_forest (g : Graph) (i : Nat) (depth : Node.Depth) (sorted : Bool) :
    ∃ g', g.clone i depth sorted = (g.vertices.length, g') ∧ Extends g g' ∧
      Forest g' none [(g.view i).clone depth sorted]
        [(((g.view i).clone depth sorted).name, g.vertices.length)]
        g.vertices.length g'.vertices.length :=
  plant_forest _ g none

/-- A copy unfolds to the copy of what the node unfolds to. -/
theorem view_clone (g : Graph) (i : Nat) (depth : Node.Depth) (sorted : Bool) :
    (g.clone i depth sorted).2.view (g.clone i depth sorted).1 = (g.view i).clone depth sorted := by
  obtain ⟨g', h, -, hf⟩ := clone_forest g i depth sorted
  rw [h]
  exact List.singleton_inj.mp (hf.map_unfold (Nat.sub_le ..))

theorem child?_eq_none_of_length_le (h : g.vertices.length ≤ d) (n : String) :
    g.child? d n = none := by
  rw [child?, get?_of_length_le h]
  rfl

namespace Extends

variable (h : Extends g g')
include h

theorem name? (hn : g.name? j = some n) : g'.name? j = some n := by
  obtain ⟨w, hw, hname⟩ := Option.map_eq_some_iff.mp hn
  rw [name?_of_get? (h j w hw), hname]

theorem child? (hd : d < g.vertices.length) (n : String) : g'.child? d n = g.child? d n := by
  rw [Graph.child?, Graph.child?, h.get?_eq hd]

theorem parent? (hj : j < g.vertices.length) : g'.parent? j = g.parent? j := by
  rw [Graph.parent?, Graph.parent?, h.get?_eq hj]

end Extends

/-- A tree of new nodes that is linked to nothing leaves the links of a graph in order. -/
theorem Wired.planted (hg : Wired g) (h : Extends g g') {t : Node} {root : String × Nat}
    (hf : Forest g' none [t] [root] g.vertices.length g'.vertices.length) (ht : t.Distinct) :
    Wired g' := by
  have hplaced {j : Nat} {x : Vertex} (hj : g.vertices.length ≤ j) (hx : g'.get? j = some x) :
      Forest.Placed g' j x :=
    hf.placed (fun s hs => List.mem_singleton.mp hs ▸ ht) hj (lt_length_of_get? hx) hx
  have hnodup (d : Nat) (x : Vertex) (hx : g'.get? d = some x) :
      (x.children.map (·.1)).Nodup := by
    rcases Nat.lt_or_ge d g.vertices.length with hold | hnew
    · exact hg.nodup d x ((h.get?_eq hold).symm.trans hx)
    · exact (hplaced hnew hx).nodup
  refine ⟨hnodup, ?_, ?_, ?_⟩
  · intro d x hx hleaf
    rcases Nat.lt_or_ge d g.vertices.length with hold | hnew
    · exact hg.childless d x ((h.get?_eq hold).symm.trans hx) hleaf
    · exact (hplaced hnew hx).childless hleaf
  · intro d n c hc
    rcases Nat.lt_or_ge d g.vertices.length with hold | hnew
    · rw [h.child? hold] at hc
      exact h.name? (hg.named d n c hc)
    · obtain ⟨x, hx, -, hlookup⟩ := get?_of_child? hc
      obtain ⟨z, hz, hname, -⟩ :=
        (hplaced hnew hx).held (n, c) ((mem_iff_lookup (hnodup d x hx)).mpr hlookup)
      rw [name?_of_get? hz, hname]
  · intro i p hp
    obtain ⟨x, hx, hlink⟩ := Option.bind_eq_some_iff.mp hp
    rcases Nat.lt_or_ge i g.vertices.length with hold | hnew
    · rw [h.parent? hold] at hp
      obtain ⟨n, hname, hc⟩ := hg.linked i p hp
      refine ⟨n, h.name? hname, ?_⟩
      rw [h.child?, hc]
      by_contra hge
      rw [child?_eq_none_of_length_le (Nat.le_of_not_lt hge)] at hc
      cases hc
    · obtain ⟨hroot, -⟩ | ⟨q, y, -, -, hy, hdir, hq, hmem⟩ :=
        hf.root_or_held hnew (lt_length_of_get? hx) hx
      · rw [hlink] at hroot
        cases hroot
      · obtain rfl := Option.some.inj (hlink.symm.trans hq)
        refine ⟨x.name, name?_of_get? hx, ?_⟩
        rw [child?_of_get? hy, if_pos hdir]
        exact (mem_iff_lookup (hnodup p y hy)).mp hmem

/-- Such a tree closes no cycle: no old node holds a new one, and a new one holds later ones. -/
theorem Acyclic.planted (ha : g.Acyclic) (hg : Wired g) (h : Extends g g') {t : Node}
    {root : String × Nat}
    (hf : Forest g' none [t] [root] g.vertices.length g'.vertices.length) (ht : t.Distinct) :
    g'.Acyclic := by
  have hnew {d c : Nat} (hd : g.vertices.length ≤ d) (hc : g'.Holds d c) : d < c := by
    obtain ⟨n, hn⟩ := hc
    obtain ⟨x, hx, -, hlookup⟩ := get?_of_child? hn
    have hplaced :=
      hf.placed (fun s hs => List.mem_singleton.mp hs ▸ ht) hd (lt_length_of_get? hx) hx
    obtain ⟨z, -, -, -, hlt⟩ :=
      hplaced.held (n, c) ((mem_iff_lookup hplaced.nodup).mpr hlookup)
    exact hlt
  have hold {d c : Nat} (hd : d < g.vertices.length) (hc : g'.Holds d c) :
      g.Holds d c ∧ c < g.vertices.length := by
    obtain ⟨n, hn⟩ := hc
    rw [h.child? hd] at hn
    obtain ⟨w, hw⟩ := hg.get?_of_held ⟨n, hn⟩
    exact ⟨⟨n, hn⟩, lt_length_of_get? hw⟩
  intro i hi
  rcases Nat.lt_or_ge i g.vertices.length with hlt | hge
  · have hway {c : Nat} (hc : Relation.TransGen g'.Holds i c) :
        Relation.TransGen g.Holds i c ∧ c < g.vertices.length := by
      induction hc with
      | single hc => exact ⟨.single (hold hlt hc).1, (hold hlt hc).2⟩
      | tail _ hc ih => exact ⟨ih.1.tail (hold ih.2 hc).1, (hold ih.2 hc).2⟩
    exact ha i (hway hi).1
  · have hway {c : Nat} (hc : Relation.TransGen g'.Holds i c) : i < c := by
      induction hc with
      | single hc => exact hnew hge hc
      | tail _ hc ih => exact ih.trans (hnew (hge.trans ih.le) hc)
    exact Nat.lt_irrefl i (hway hi)

theorem Wired.clone (hg : Wired g) (ha : g.Acyclic) (hi : g.get? i = some v) (depth : Node.Depth)
    (sorted : Bool) : Wired (g.clone i depth sorted).2 := by
  obtain ⟨g', h, hext, hf⟩ := clone_forest g i depth sorted
  rw [h]
  exact hg.planted hext hf ((hg.distinct_view ha hi).clone depth sorted)

end TreeStore.Graph
