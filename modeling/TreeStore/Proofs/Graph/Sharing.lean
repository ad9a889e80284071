import TreeStore.Proofs.Graph.Planted

/-!
# Histories of a graph

A graph comes about by operations on nodes: new ones, children added and removed, copies and values
that are assigned.  `Run` lists the operations, the last one first, each with the graph it was done
on; an operation that is refused changes nothing.  A copy is taken only where there are no cycles,
for otherwise it would have no end.

Any node may be added to several directories, so several of them may hold it while its link names
only one, and replacing or removing it in one of them clears the link also where it names another.
Two things hold all the same: a link names a directory that holds the node (`Wired`), and whoever
holds a node has been given it by some operation (`Adds`, `Run.added_of_holds`).  For a node that
has been added to one directory only this decides the link.
-/

namespace TreeStore.Graph

/-- An operation on the nodes of a graph. -/
inductive Operation where
  | new (key : String) (isDir : Bool) (value : Option String)
  | addChild (d child : Nat)
  | removeChild (d : Nat) (name : String)
  | clone (i : Nat) (depth : Node.Depth) (sorted : Bool)
  | setValue (i : Nat) (value : Option String)
deriving DecidableEq, Repr

/-- The graph after an operation; a refused one leaves it as it is. -/
def apply (g : Graph) : Operation → Graph
  | .new key isDir value => (g.new key isDir value).2
  | .addChild d child => (g.addChild d child).toOption.getD g
  | .removeChild d name => (g.removeChild d name).2
  | .clone i depth sorted => (g.clone i depth sorted).2
  | .setValue i value => g.setValue i value

/-- The operation can be done: a copy is taken of a node that is there, where there are no
cycles. -/
def Admits (g : Graph) : Operation → Prop
  | .clone i _ _ => (∃ v, g.get? i = some v) ∧ g.Acyclic
  | _ => True

/-- The operations that led to a graph from none at all, the last one first, each with the graph
that it was done on. -/
inductive Run : List (Graph × Operation) → Graph → Prop
  | start : Run [] {}
  | step {history : List (Graph × Operation)} {g : Graph} (before : Run history g) (op : Operation)
      (possible : g.Admits op) : Run ((g, op) :: history) (g.apply op)

/-- The operation adds the node `n` to the directory `d`: as a child that is accepted, or as part of
a copy, where new directories get new nodes. -/
def Adds (g : Graph) : Operation → (d n : Nat) → Prop
  | .addChild d child, e, n => e = d ∧ n = child ∧ ∃ g', g.addChild d child = .ok g'
  | .clone i depth sorted, e, n =>
    g.get? e = none ∧ (g.clone i depth sorted).2.Holds e n
  | _, _, _ => False

/-- All that the history added the node to is one directory. -/
def OnlyUnder (history : List (Graph × Operation)) (p n : Nat) : Prop :=
  ∀ entry ∈ history, ∀ d, entry.1.Adds entry.2 d n → d = p

variable {g g' : Graph} {history : List (Graph × Operation)} {c d i n p q : Nat} {v w : Vertex}
  {op : Operation}

/-! ### One operation -/

/-- An addition either takes place or leaves everything as it is. -/
theorem apply_addChild (g : Graph) (d child : Nat) :
    (∃ g', g.addChild d child = .ok g' ∧ g.apply (.addChild d child) = g') ∨
      (∀ e n, ¬ g.Adds (.addChild d child) e n) ∧ g.apply (.addChild d child) = g := by
  simp only [apply]
  cases h : g.addChild d child with
  | ok g' => exact .inl ⟨g', rfl, rfl⟩
  | error e =>
    refine .inr ⟨fun e n hadds => ?_, rfl⟩
    obtain ⟨-, -, g', hok⟩ := hadds
    rw [h] at hok
    cases hok

theorem Wired.applied (hg : Wired g) (h : g.Admits op) : Wired (g.apply op) := by
  cases op with
  | new key isDir value => exact hg.new key isDir value
  | addChild d child =>
    obtain ⟨g', hok, heq⟩ | ⟨-, heq⟩ := apply_addChild g d child
    · rw [heq]
      exact hg.addChild hok
    · rw [heq]
      exact hg
  | removeChild d name => exact hg.removeChild d name
  | clone i depth sorted =>
    obtain ⟨⟨v, hi⟩, ha⟩ := h
    exact hg.clone ha hi depth sorted
  | setValue i value => exact hg.setValue i value

/-- Whoever holds a node held it before or was just given it. -/
theorem holds_apply (h : (g.apply op).Holds d n) :
    g.Holds d n ∨ g.Adds op d n := by
  obtain ⟨m, hm⟩ := h
  cases op with
  | new key isDir value => exact .inl ⟨m, (child?_new ..).symm.trans hm⟩
  | addChild e child =>
    obtain ⟨g', hok, heq⟩ | ⟨-, heq⟩ := apply_addChild g e child
    · obtain ⟨name, hname⟩ := exists_name?_of_addChild hok
      rw [heq, child?_addChild hok hname] at hm
      split_ifs at hm with hplace
      · exact .inr ⟨hplace.1, (Option.some.inj hm).symm, g', hok⟩
      · exact .inl ⟨m, hm⟩
    · rw [heq] at hm
      exact .inl ⟨m, hm⟩
  | removeChild e name =>
    simp only [apply, child?_removeChild] at hm
    split_ifs at hm
    exact .inl ⟨m, hm⟩
  | clone i depth sorted =>
    rcases Nat.lt_or_ge d g.vertices.length with hold | hnew
    · obtain ⟨g', hclone, hext, -⟩ := clone_forest g i depth sorted
      simp only [apply, hclone, hext.child? hold] at hm
      exact .inl ⟨m, hm⟩
    · exact .inr ⟨get?_of_length_le hnew, m, hm⟩
  | setValue i value =>
    simp only [apply, child?_setValue] at hm
    exact .inl ⟨m, hm⟩

/-- A link that names the one holder of a node goes on naming it, as long as nobody else is given
the node and that one holds it. -/
theorem Wired.parent?_apply (hg : Wired g) (hpossible : g.Admits op)
    (hlink : g.Holds p n → g.parent? n = some p) (hholds : ∀ d, g.Holds d n → d = p)
    (hadds : ∀ d, g.Adds op d n → d = p) (h : (g.apply op).Holds p n) :
    (g.apply op).parent? n = some p := by
  obtain ⟨m, hm⟩ := h
  cases op with
  | new key isDir value =>
    simp only [apply, child?_new, parent?_new] at hm ⊢
    exact hlink ⟨m, hm⟩
  | addChild e child =>
    obtain ⟨g', hok, heq⟩ | ⟨-, heq⟩ := apply_addChild g e child
    · obtain ⟨name, hname⟩ := exists_name?_of_addChild hok
      rw [heq, child?_addChild hok hname] at hm
      rw [heq, parent?_addChild hok hname]
      by_cases hchild : n = child
      · rw [if_pos hchild, hadds e ⟨rfl, hchild, g', hok⟩]
      have hplace : ¬(p = e ∧ m = name) := fun hplace => by
        rw [if_pos hplace] at hm
        exact hchild (Option.some.inj hm).symm
      rw [if_neg hplace] at hm
      rw [if_neg hchild, if_neg, hlink ⟨m, hm⟩]
      -- the holder whose child is replaced would be `p` itself, and under the same name
      intro hold
      obtain rfl := hholds e ⟨name, hold⟩
      exact hplace ⟨rfl, hg.name_unique hm hold⟩
    · rw [heq] at hm ⊢
      exact hlink ⟨m, hm⟩
  | removeChild e name =>
    simp only [apply, child?_removeChild, parent?_removeChild] at hm ⊢
    split_ifs at hm with hplace
    rw [if_neg, hlink ⟨m, hm⟩]
    intro hold
    obtain rfl := hholds e ⟨name, hold⟩
    exact hplace ⟨rfl, hg.name_unique hm hold⟩
  | clone i depth sorted =>
    obtain ⟨⟨v, hi⟩, ha⟩ := hpossible
    obtain ⟨g', hclone, hext, hf⟩ := clone_forest g i depth sorted
    simp only [apply, hclone] at hm ⊢
    rcases Nat.lt_or_ge p g.vertices.length with hold | hnew
    · rw [hext.child? hold] at hm
      obtain ⟨w, hw⟩ := hg.get?_of_held ⟨m, hm⟩
      rw [hext.parent? (lt_length_of_get? hw)]
      exact hlink ⟨m, hm⟩
    · -- a new directory holds nodes that are linked to it
      obtain ⟨x, hx, -, hlookup⟩ := get?_of_child? hm
      have htree := (hg.distinct_view ha hi).clone depth sorted
      have hplaced := hf.placed (fun t ht => List.mem_singleton.mp ht ▸ htree) hnew
        (lt_length_of_get? hx) hx
      obtain ⟨z, hz, -, hparent, -⟩ :=
        hplaced.held (m, n) ((mem_iff_lookup hplaced.nodup).mpr hlookup)
      rw [parent?_of_get? hz, hparent]
  | setValue i value =>
    simp only [apply, child?_setValue, parent?_setValue] at hm ⊢
    exact hlink ⟨m, hm⟩

/-- Nodes stay, and none becomes a directory or ceases to be one. -/
theorem get?_apply (h : g.get? i = some v) (op : Operation) :
    ∃ v', (g.apply op).get? i = some v' ∧ v'.isDir = v.isDir := by
  cases op with
  | new key isDir value => exact ⟨v, get?_new_of_some key isDir value h, rfl⟩
  | addChild d child =>
    obtain ⟨g', hok, heq⟩ | ⟨-, heq⟩ := apply_addChild g d child
    · obtain ⟨_, _, -, -, -, hr⟩ := rewired_of_addChild hok
      rw [heq, hr i, h]
      exact ⟨_, rfl, rfl⟩
    · rw [heq]
      exact ⟨v, h, rfl⟩
  | removeChild d name =>
    simp only [apply]
    cases hc : g.child? d name with
    | none =>
      rw [removeChild_none hc]
      exact ⟨v, h, rfl⟩
    | some c =>
      obtain ⟨_, hd, -, -⟩ := get?_of_child? hc
      rw [(rewired_removeChild hd hc).2 i, h]
      exact ⟨_, rfl, rfl⟩
  | clone j depth sorted =>
    obtain ⟨g', hclone, hext, -⟩ := clone_forest g j depth sorted
    simp only [apply, hclone]
    exact ⟨v, hext i v h, rfl⟩
  | setValue j value =>
    simp only [apply, get?_setValue_map, h]
    exact ⟨_, rfl, rfl⟩

theorem addChild_leaf (hd : g.get? d = some v) (hleaf : v.isDir = false) (hc : g.get? c = some w) :
    g.addChild d c = .error (.childOfLeaf v.key) := by
  simp [addChild, hd, hc, hleaf]

/-! ### Whole histories -/

theorem onlyUnder_nil : OnlyUnder [] p n := fun _ h => absurd h List.not_mem_nil

theorem onlyUnder_cons :
    OnlyUnder ((g, op) :: history) p n ↔ (∀ d, g.Adds op d n → d = p) ∧ OnlyUnder history p n :=
  List.forall_mem_cons

namespace Run

theorem wired (h : Run history g) : Wired g := by
  induction h with
  | start => exact wired_empty
  | step before op possible ih => exact ih.applied possible

/-- Whoever holds a node has been given it. -/
theorem added_of_holds (h : Run history g) (hd : g.Holds d n) :
    ∃ entry ∈ history, entry.1.Adds entry.2 d n := by
  induction h with
  | start =>
    obtain ⟨m, hm⟩ := hd
    cases hm
  | step before op possible ih =>
    rcases holds_apply hd with hd | hadds
    · obtain ⟨entry, hentry, hadds⟩ := ih hd
      exact ⟨entry, List.mem_cons_of_mem _ hentry, hadds⟩
    · exact ⟨_, List.mem_cons_self, hadds⟩

/-- The link of a node that has been added to one directory only, as long as that one holds it. -/
theorem parent?_of_holds (h : Run history g) (honly : OnlyUnder history p n) (hp : g.Holds p n) :
    g.parent? n = some p := by
  induction h with
  | start =>
    obtain ⟨m, hm⟩ := hp
    cases hm
  | step before op possible ih =>
    obtain ⟨hadds, honly⟩ := onlyUnder_cons.mp honly
    refine before.wired.parent?_apply possible (ih honly) (fun d hd => ?_) hadds hp
    obtain ⟨entry, hentry, hentryAdds⟩ := before.added_of_holds hd
    exact honly entry hentry d hentryAdds

/-- Links under sharing.  A link names a directory whose child of that name is the node; children
stand under their names; a leaf has no children, takes none and stays a leaf.  A node that has been
added to one directory only is linked to that one exactly as long as it holds the node, and else to
none. -/
theorem parent_links (h : Run history g) :
    (∀ i p, g.parent? i = some p → ∃ v w, g.get? p = some v ∧ v.isDir = true ∧
      g.get? i = some w ∧ v.children.lookup w.name = some i) ∧
    (∀ d v, g.get? d = some v → (v.children.map (·.1)).Nodup ∧
      ∀ e ∈ v.children, ∃ w, g.get? e.2 = some w ∧ w.name = e.1) ∧
    (∀ d v, g.get? d = some v → v.isDir = false → v.children = [] ∧
      (∀ c w, g.get? c = some w → g.addChild d c = .error (.childOfLeaf v.key)) ∧
      ∀ op, g.Admits op → ∃ v', (g.apply op).get? d = some v' ∧ v'.isDir = false ∧
        v'.children = []) ∧
    ∀ p n, OnlyUnder history p n → ∀ q, g.parent? n = some q ↔ q = p ∧ g.Holds p n := by
  have hg := h.wired
  refine ⟨fun i p hlink => ?_, fun d v hd => ⟨hg.nodup d v hd, fun e he => ?_⟩,
    fun d v hd hleaf => ⟨hg.childless d v hd hleaf, fun c w hc => addChild_leaf hd hleaf hc,
      fun op hop => ?_⟩, fun p n honly q => ⟨fun hlink => ?_, ?_⟩⟩
  · obtain ⟨n, hname, hc⟩ := hg.linked i p hlink
    obtain ⟨v, hp, hdir, hlookup⟩ := get?_of_child? hc
    obtain ⟨w, hi, rfl⟩ := Option.map_eq_some_iff.mp hname
    exact ⟨v, w, hp, hdir, hi, hlookup⟩
  · exact Option.map_eq_some_iff.mp (hg.named d e.1 e.2 ((hg.mem_children_iff hd).mp he))
  · obtain ⟨v', hv', hkind⟩ := get?_apply hd op
    have hleaf' := hkind.trans hleaf
    exact ⟨v', hv', hleaf', (hg.applied hop).childless d v' hv' hleaf'⟩
  · obtain ⟨m, -, hc⟩ := hg.linked n q hlink
    obtain ⟨entry, hentry, hadds⟩ := h.added_of_holds ⟨m, hc⟩
    obtain rfl := honly entry hentry q hadds
    exact ⟨rfl, m, hc⟩
  · rintro ⟨rfl, hp⟩
    exact h.parent?_of_holds honly hp

/-- A leaf that was added to one directory is linked to it; once it is in a second one too, its link
names that one. -/
theorem parent_links_shared :
    ∃ history g g', Run history g ∧ OnlyUnder history 0 2 ∧ g.Holds 0 2 ∧ g.parent? 2 = some 0 ∧
      Run ((g, .addChild 1 2) :: history) g' ∧ g'.Holds 0 2 ∧ g'.parent? 2 = some 1 ∧
        ∃ v w, g'.get? 1 = some v ∧ v.isDir = true ∧ g'.get? 2 = some w ∧
          v.children.lookup w.name = some 2 := by
  have h₀ := Run.start.step (.new "/a" true none) trivial
  have h₁ := h₀.step (.new "/b" true none) trivial
  have h₂ := h₁.step (.new "/a/x" false (some "1")) trivial
  obtain ⟨history, h₃, honly⟩ : ∃ history, Run history _ ∧ OnlyUnder history 0 2 :=
    ⟨_, h₂.step (.addChild 0 2) trivial, by simp [onlyUnder_cons, onlyUnder_nil, Adds]⟩
  have h₄ := h₃.step (.addChild 1 2) trivial
  have hlink := ((parent_links h₃).2.2.2 0 2 honly 0).mpr ⟨rfl, "x", rfl⟩
  exact ⟨_, _, _, h₃, honly, ⟨"x", rfl⟩, hlink, h₄, ⟨"x", rfl⟩, rfl, (parent_links h₄).1 2 1 rfl⟩

end Run

end TreeStore.Graph
