import TreeStore.Proofs.Graph.Planted

/-!
# Copies made node by node

The copy of a node is planted from its view.  `copy` makes it as the nodes themselves would: a new
node that stands alone, to which a copy of each child is added like any child.  Where there are no
cycles the two come to the same graph, number by number: `Wired.copy_eq_clone`.

Both add a forest of one tree, and a forest decides every node of its range (`Forest.unique`).  What
carries the induction is `Growing`: the trees that a new directory has been given so far are a
forest below it, and a copy of the next child becomes one more of them.
-/

namespace TreeStore

/-- The children in their own order, or in the order of their names. -/
def Vertex.listing (v : Vertex) (sorted : Bool) : List (String × Nat) :=
  if sorted then v.children.mergeSort (fun a b => decide (a.1 ≤ b.1)) else v.children

theorem Vertex.listing_perm (v : Vertex) (sorted : Bool) : (v.listing sorted).Perm v.children := by
  cases sorted with
  | false => exact .refl _
  | true => exact List.mergeSort_perm _ _

namespace Graph

/-- Copies a node and, where the depth reaches them, its children one after the other; no way down
that is longer than `fuel` is followed. -/
def copy : (fuel : Nat) → Graph → Nat → Node.Depth → (sorted : Bool) → Except Fault (Nat × Graph)
  | 0, _, _, _, _ => .error .tooDeep
  | fuel + 1, g, i, depth, sorted => do
    let v := g.vertex i
    let (d, g) := g.new v.key v.isDir v.value
    if v.isDir && depth.reaches then
      let g ← (v.listing sorted).foldlM (fun g e => do
        let (c, g) ← copy fuel g e.2 depth.below sorted
        g.addChild d c) g
      return (d, g)
    else
      return (d, g)

variable {g g₀ g₁ g₂ : Graph} {link : Option Nat} {t : Node} {ts : List Node}
  {es es' : List (String × Nat)} {a b b' c d i : Nat} {k n : String} {v w : Vertex}

/-! ### A forest decides its nodes -/

theorem Forest.unique (h : Forest g₁ link ts es a b) (h' : Forest g₂ link ts es' a b') :
    es = es' ∧ b = b' ∧ ∀ j, a ≤ j → j < b → g₁.get? j = g₂.get? j := by
  induction h generalizing es' b' with
  | nil =>
    cases h'
    exact ⟨rfl, rfl, fun j _ _ => by omega⟩
  | leaf here rest ih =>
    cases h' with
    | leaf here' rest' =>
      obtain ⟨rfl, rfl, hrest⟩ := ih rest'
      refine ⟨rfl, rfl, fun j hj hjb => ?_⟩
      rcases Nat.eq_or_lt_of_le hj with rfl | hlt
      · rw [here, here']
      · exact hrest j hlt hjb
  | dir here below rest ihbelow ihrest =>
    cases h' with
    | dir here' below' rest' =>
      obtain ⟨rfl, rfl, hbelow⟩ := ihbelow below'
      obtain ⟨rfl, rfl, hrest⟩ := ihrest rest'
      refine ⟨rfl, rfl, fun j hj hjb => ?_⟩
      rcases Nat.eq_or_lt_of_le hj with rfl | hlt
      · rw [here, here']
      · rcases Nat.lt_or_ge j _ with hjm | hjm
        · exact hbelow j hlt hjm
        · exact hrest j hjm hjb

/-- There is one way to add a forest to a graph. -/
theorem eq_of_forest (hext₁ : Extends g g₁) (hext₂ : Extends g g₂)
    (h₁ : Forest g₁ link ts es g.vertices.length g₁.vertices.length)
    (h₂ : Forest g₂ link ts es' g.vertices.length g₂.vertices.length) : g₁ = g₂ := by
  obtain ⟨-, hlength, hsame⟩ := h₁.unique h₂
  have hget (j : Nat) : g₁.get? j = g₂.get? j := by
    rcases Nat.lt_or_ge j g.vertices.length with hold | hnew
    · rw [hext₁.get?_eq hold, hext₂.get?_eq hold]
    · rcases Nat.lt_or_ge j g₁.vertices.length with hj | hj
      · exact hsame j hnew hj
      · rw [get?_of_length_le hj, get?_of_length_le (hlength ▸ hj)]
  exact congrArg Graph.mk (List.ext_getElem? hget)

/-! ### A directory that is given trees -/

theorem bind_of_not_mem {cs : List (String × Nat)} (h : n ∉ cs.map (·.1)) :
    bind n c cs = cs ++ [(n, c)] := by
  induction cs with
  | nil => rfl
  | cons e cs ih =>
    rw [List.map_cons, List.mem_cons, not_or] at h
    rw [bind, if_neg (Ne.symm h.1), ih h.2, List.cons_append]

/-- A child of a new name replaces none. -/
theorem addChild_of_not_mem (hd : g.get? d = some v) (hdir : v.isDir = true)
    (hc : g.get? c = some w) (hn : w.name ∉ v.children.map (·.1)) :
    g.addChild d c = .ok
      ((g.update d fun v => { v with children := bind w.name c v.children }).update c
        fun w => { w with parent := some d }) := by
  have hnone : v.children.lookup w.name = none :=
    List.lookup_eq_none_iff.mpr fun e he => by
      have hne : w.name ≠ e.1 := fun h => hn (h ▸ List.mem_map_of_mem he)
      simpa using hne
  simp only [addChild, hd, hc, if_pos hdir, hnone]

/-- A tree that is linked to nothing, once its root has a link. -/
theorem Forest.linked (h : Forest g none [t] [(n, c)] c b) :
    Forest (g.update c fun w => { w with parent := link }) link [t] [(n, c)] c b := by
  have hroot {w : Vertex} (hw : g.get? c = some w) :
      (g.update c fun w => { w with parent := link }).get? c = some { w with parent := link } := by
    rw [get?_update, if_pos rfl, hw, Option.map_some]
  have hsame (j : Nat) (hj : c + 1 ≤ j) :
      (g.update c fun w => { w with parent := link }).get? j = g.get? j := by
    rw [get?_update, if_neg (by omega)]
  cases h with
  | leaf here rest =>
    cases rest
    exact .leaf (hroot here) .nil
  | dir here below rest =>
    cases rest
    exact .dir (hroot here) (below.congr fun j hj _ => hsame j hj) .nil

/-- The graph `g` is `g₀` with a new directory that has been given trees. -/
structure Growing (g₀ g : Graph) (k : String) (ts : List Node) (es : List (String × Nat)) :
    Prop where
  ext : Extends g₀ g
  here : g.get? g₀.vertices.length =
    some { key := k, isDir := true, value := none, children := es, parent := none }
  below : Forest g (some g₀.vertices.length) ts es (g₀.vertices.length + 1) g.vertices.length

theorem growing_new (g₀ : Graph) (k : String) (value : Option String) :
    Growing g₀ (g₀.new k true value).2 k [] [] where
  ext := .add g₀ _
  here := by
    rw [get?_new, if_pos rfl]
    rfl
  below := by
    rw [new, length_add]
    exact .nil

theorem Growing.forest (h : Growing g₀ g k ts es) :
    Forest g none [.dir k ts] [(Path.baseName k, g₀.vertices.length)] g₀.vertices.length
      g.vertices.length := .dir h.here h.below .nil

/-- One more tree of a new name, which stands alone, is added. -/
theorem Growing.addChild (h : Growing g₀ g k ts es) (hext : Extends g g₁)
    (hf : Forest g₁ none [t] [(t.name, g.vertices.length)] g.vertices.length g₁.vertices.length)
    (hn : t.name ∉ ts.map Node.name) :
    ∃ g₂, g₁.addChild g₀.vertices.length g.vertices.length = .ok g₂ ∧
      Growing g₀ g₂ k (ts ++ [t]) (es ++ [(t.name, g.vertices.length)]) := by
  have hlt := lt_length_of_get? h.here
  have hd := hext _ _ h.here
  obtain ⟨w, hw, hname, -⟩ := hf.root List.mem_cons_self
  rw [← h.below.map_name] at hn
  refine ⟨_, addChild_of_not_mem hd rfl hw (hname ▸ hn), ?_⟩
  rw [hname]
  -- the directory and the root of the tree are two nodes, and both are new
  have hsame (j : Nat) (hj : j ≠ g₀.vertices.length) :
      (g₁.update g₀.vertices.length fun v =>
        { v with children := bind t.name g.vertices.length v.children }).get? j = g₁.get? j := by
    rw [get?_update, if_neg (Ne.symm hj)]
  exact {
    ext := ((h.ext.trans hext).update (Nat.le_refl _) _).update hlt.le _
    here := by
      rw [get?_update, if_neg hlt.ne', get?_update, if_pos rfl, hd]
      simp only [Option.map_some, bind_of_not_mem hn]
    below := by
      rw [length_update, length_update]
      refine Forest.append (h.below.congr fun j hj hjg => ?_)
        (hf.congr fun j hj _ => hsame j (by omega)).linked
      rw [get?_update, if_neg (by omega), hsame j (by omega), hext.get?_eq hjg] }

/-! ### Copies -/

/-- From any graph that has the nodes of `g₀`, copying the node adds this tree alone. -/
def CopiesTo (g₀ : Graph) (fuel : Nat) (depth : Node.Depth) (sorted : Bool) (i : Nat) (t : Node) :
    Prop := ∀ g, Extends g₀ g → ∃ g', copy fuel g i depth sorted = .ok (g.vertices.length, g') ∧
  Extends g g' ∧ Forest g' none [t] [(t.name, g.vertices.length)] g.vertices.length
    g'.vertices.length

/-- The copies of children, added one after the other. -/
theorem growing_copies {fuel : Nat} {depth : Node.Depth} {sorted : Bool} (tree : Nat → Node)
    {cs : List (String × Nat)} (hcopies : ∀ e ∈ cs, g₀.CopiesTo fuel depth sorted e.2 (tree e.2))
    (hext : Extends g₀ g₁) (h : Growing g₁ g k ts es)
    (hnames : (ts.map Node.name ++ cs.map fun e => (tree e.2).name).Nodup) :
    ∃ g' es', cs.foldlM (fun g e => do
        let (c, g) ← copy fuel g e.2 depth sorted
        g.addChild g₁.vertices.length c) g = Except.ok g' ∧
      Growing g₁ g' k (ts ++ cs.map fun e => tree e.2) es' := by
  induction cs generalizing g ts es with
  | nil => exact ⟨g, es, rfl, by rwa [List.map_nil, List.append_nil]⟩
  | cons e cs ih =>
    obtain ⟨g₂, hcopy, hext₂, hf⟩ := hcopies e List.mem_cons_self g (hext.trans h.ext)
    have hnew : (tree e.2).name ∉ ts.map Node.name := fun hmem =>
      (List.nodup_append.mp hnames).2.2 _ hmem _ List.mem_cons_self rfl
    obtain ⟨g₃, hadd, hgrown⟩ := h.addChild hext₂ hf hnew
    obtain ⟨g', es', hrest, hgrown'⟩ := ih (fun e he => hcopies e (List.mem_cons_of_mem _ he))
      hgrown (by simpa using hnames)
    refine ⟨g', es', ?_, by simpa using hgrown'⟩
    rw [List.foldlM_cons, hcopy]
    exact (congrArg (· >>= _) hadd).trans hrest

/-- The names in a listing are sorted like the trees that go by them. -/
theorem map_listing {tree : Nat → Node} (hnames : ∀ e ∈ v.children, (tree e.2).name = e.1)
    (k : String) (sorted : Bool) : (v.listing sorted).map (fun e => tree e.2) =
      (Node.dir k (v.children.map fun e => tree e.2)).listing sorted := by
  cases sorted with
  | false => rfl
  | true => exact List.map_mergeSort fun e he e' he' => by rw [hnames e he, hnames e' he']

/-- The copies of the children have names of their own. -/
theorem Wired.nodup_copies (hg : Wired g) (ha : g.Acyclic) (hi : g.get? i = some v)
    (depth : Node.Depth) (sorted : Bool) :
    ((v.listing sorted).map fun e => ((g.view e.2).clone depth sorted).name).Nodup := by
  have hperm := v.listing_perm sorted
  have hsame : (v.listing sorted).map (fun e => ((g.view e.2).clone depth sorted).name) =
      (v.listing sorted).map (·.1) :=
    List.map_congr_left fun e he => by
      rw [Node.name_clone, hg.name_view_of_mem ha hi (hperm.subset he)]
  rw [hsame, (hperm.map (·.1)).nodup_iff]
  exact hg.nodup i v hi

theorem Wired.copiesTo (hg : Wired g) (ha : g.Acyclic) {fuel : Nat} (hfits : g.Fits fuel i)
    (hi : g.get? i = some v) (depth : Node.Depth) (sorted : Bool) :
    g.CopiesTo fuel depth sorted i ((g.view i).clone depth sorted) := by
  induction fuel generalizing i v depth with
  | zero => exact hfits.elim
  | succ fuel ih =>
    intro g₁ hext
    have hv : g₁.vertex i = v := vertex_of_get? (hext i v hi)
    rw [hg.view_eq ha hi]
    simp only [copy, hv]
    cases hdir : v.isDir with
    | false =>
      refine ⟨_, rfl, .add g₁ _, ?_⟩
      rw [Graph.new, length_add]
      exact .leaf (by rw [get?_add, if_pos rfl]; rfl) .nil
    | true =>
      have hgrowing := growing_new g₁ v.key v.value
      simp only [if_true, Node.clone_dir]
      cases hreaches : depth.reaches with
      | false => exact ⟨_, rfl, hgrowing.ext, hgrowing.forest⟩
      | true =>
        have hcopies (e : String × Nat) (he : e ∈ v.listing sorted) : g.CopiesTo fuel depth.below
            sorted e.2 ((g.view e.2).clone depth.below sorted) := by
          have hheld := hg.holds_of_mem hi ((v.listing_perm sorted).subset he)
          obtain ⟨w, hw⟩ := hg.get?_of_held hheld
          exact ih (hfits _ hheld) hw depth.below
        obtain ⟨g', es', hfold, hgrown⟩ :=
          growing_copies (fun c => (g.view c).clone depth.below sorted) hcopies hext hgrowing
            (hg.nodup_copies ha hi depth.below sorted)
        refine ⟨g', congrArg (· >>= _) hfold, hgrown.ext, ?_⟩
        have htrees := congrArg (List.map (Node.clone depth.below sorted))
          (map_listing (fun e he => hg.name_view_of_mem ha hi he) v.key sorted)
        rw [List.map_map] at htrees
        simp only [if_true]
        rw [← htrees]
        exact hgrown.forest

/-- Where there are no cycles, a copy is what copying node by node comes to. -/
theorem Wired.copy_eq_clone (hg : Wired g) (ha : g.Acyclic) (hi : g.get? i = some v) {fuel : Nat}
    (hfuel : g.vertices.length ≤ fuel) (depth : Node.Depth) (sorted : Bool) :
    copy fuel g i depth sorted = .ok (g.clone i depth sorted) := by
  obtain ⟨g₁, hcopy, hext₁, hf₁⟩ :=
    hg.copiesTo ha ((hg.fits ha hi).mono hfuel) hi depth sorted g (.refl g)
  obtain ⟨g₂, hclone, hext₂, hf₂⟩ := clone_forest g i depth sorted
  rw [hcopy, hclone, eq_of_forest hext₁ hext₂ hf₁ hf₂]

end Graph

end TreeStore
