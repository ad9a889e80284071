import TreeStore.Proofs.Graph.Walk

/-!
# Siblings and their order

`Graph.names` lists the children of the directory at each path in their order.  Whatever is done to
a linked graph, the siblings that stay keep their order, and those that come stand behind them:
`KeepsOrder`.  So the order in a directory changes only if a name comes or goes there
(`KeepsOrder.names_eq`).
-/

namespace TreeStore.Graph

open List

/-- The names of the children of the node at a path, in their order. -/
def names (g : Graph) (p : List String) : List String :=
  (g.at? rootId p).elim [] fun i => (g.vertex i).children.map (·.1)

theorem names_of_at? {g : Graph} {p : List String} {i : Nat} (h : g.at? rootId p = some i) :
    g.names p = (g.vertex i).children.map (·.1) := by
  rw [names, h, Option.elim_some]

theorem names_of_none {g : Graph} {p : List String} (h : g.at? rootId p = none) :
    g.names p = [] := by
  rw [names, h, Option.elim_none]

/-- In a new graph no place has children. -/
theorem names_rooted (p : List String) : rooted.names p = [] := by
  cases p with
  | nil => rfl
  | cons m p => exact names_of_none rfl

section Linked

variable {g : Graph} (hg : Linked g)
include hg

theorem Linked.mem_names {p : List String} {n : String} :
    n ∈ g.names p ↔ g.at? rootId (p ++ [n]) ≠ none := by
  cases hp : g.at? rootId p with
  | none => simp [names_of_none hp, at?_concat, hp]
  | some i =>
    have hi := hg.get?_of_at? hp
    rw [names_of_at? hp, at?_concat, hp, Option.bind_some, Option.ne_none_iff_exists']
    simp only [hg.child?_eq_some_iff, hi, Option.some.injEq, exists_eq_left', mem_map, Prod.exists,
      exists_and_right, exists_eq_right]

theorem Linked.nodup_names (p : List String) : (g.names p).Nodup := by
  cases hp : g.at? rootId p with
  | none => simp [names_of_none hp]
  | some i =>
    rw [names_of_at? hp]
    exact (hg.sound i _ (hg.get?_of_at? hp)).nodup

end Linked

/-! ### The order is kept -/

/-- In every directory the siblings that stay come first, in their old order, and those that are
new there stand behind them. -/
def KeepsOrder (g g' : Graph) : Prop :=
  ∀ p, ∃ kept new, g'.names p = kept ++ new ∧ kept <+ g.names p ∧ ∀ n ∈ new, n ∉ g.names p

theorem keepsOrder_of_names_eq {g g' : Graph} (h : ∀ p, g'.names p = g.names p) :
    KeepsOrder g g' := fun p => ⟨g.names p, [], by rw [h, append_nil], Sublist.refl _, by simp⟩

theorem KeepsOrder.refl (g : Graph) : KeepsOrder g g := keepsOrder_of_names_eq fun _ => rfl

/-- One change after another, where the first takes no name away. -/
theorem KeepsOrder.trans {g₁ g₂ g₃ : Graph} (h : KeepsOrder g₁ g₂)
    (hgrow : ∀ p, g₁.names p ⊆ g₂.names p) (h' : KeepsOrder g₂ g₃) : KeepsOrder g₁ g₃ := by
  intro p
  obtain ⟨kept, new, heq, hkept, hnew⟩ := h p
  obtain ⟨kept', new', heq', hkept', hnew'⟩ := h' p
  rw [heq] at hkept'
  obtain ⟨old, fresh, rfl, hold, hfresh⟩ := sublist_append_iff.mp hkept'
  refine ⟨old, fresh ++ new', by rw [heq', append_assoc], hold.trans hkept, fun n hn => ?_⟩
  rcases mem_append.mp hn with hn | hn
  · exact hnew n (hfresh.subset hn)
  · exact fun hmem => hnew' n hn (hgrow p hmem)

/-- If no name comes or goes, the order is as before. -/
theorem KeepsOrder.names_eq {g g' : Graph} (h : KeepsOrder g g') {p : List String}
    (hnodup : (g.names p).Nodup) (hsame : ∀ n, n ∈ g'.names p ↔ n ∈ g.names p) :
    g'.names p = g.names p := by
  obtain ⟨kept, new, heq, hkept, hnew⟩ := h p
  have hnil : new = [] := by
    refine eq_nil_iff_forall_not_mem.mpr fun n hn => hnew n hn ((hsame n).mp ?_)
    rw [heq]
    exact mem_append_right kept hn
  rw [hnil, append_nil] at heq
  rw [heq]
  refine hkept.eq_of_length_le (hnodup.length_le_of_subset fun n hn => ?_)
  rw [← heq]
  exact (hsame n).mpr hn

/-- If one name comes and none goes, it stands behind the others. -/
theorem KeepsOrder.names_concat {g g' : Graph} (h : KeepsOrder g g') {p : List String}
    {n : String} (hnodup : (g.names p).Nodup) (hnodup' : (g'.names p).Nodup)
    (hn : n ∉ g.names p) (hsame : ∀ m, m ∈ g'.names p ↔ m ∈ g.names p ∨ m = n) :
    g'.names p = g.names p ++ [n] := by
  obtain ⟨kept, new, heq, hkept, hnew⟩ := h p
  rw [heq] at hsame hnodup' ⊢
  have hall : g.names p ⊆ kept := by
    intro m hm
    rcases mem_append.mp ((hsame m).mpr (Or.inl hm)) with h | h
    · exact h
    · exact absurd hm (hnew m h)
  have hone : ∀ m, m ∈ new ↔ m = n := by
    intro m
    constructor
    · intro hm
      rcases (hsame m).mp (mem_append_right kept hm) with h | h
      · exact absurd h (hnew m hm)
      · exact h
    · rintro rfl
      rcases mem_append.mp ((hsame m).mpr (Or.inr rfl)) with h | h
      · exact absurd (hkept.subset h) hn
      · exact h
  have hperm : new.Perm [n] :=
    (perm_ext_iff_of_nodup (nodup_append.mp hnodup').2.1 (nodup_singleton n)).mpr fun m => by
      rw [hone, mem_singleton]
  rw [hkept.eq_of_length_le (hnodup.length_le_of_subset hall), perm_singleton.mp hperm]

/-- If one name goes and none comes, the others stay as they stand. -/
theorem KeepsOrder.names_erase {g g' : Graph} (h : KeepsOrder g g') {p : List String} {n : String}
    (hnodup : (g.names p).Nodup) (hsame : ∀ m, m ∈ g'.names p ↔ m ∈ g.names p ∧ m ≠ n) :
    g'.names p = (g.names p).erase n := by
  obtain ⟨kept, new, heq, hkept, hnew⟩ := h p
  have hnil : new = [] := by
    refine eq_nil_iff_forall_not_mem.mpr fun m hm => hnew m hm ((hsame m).mp ?_).1
    rw [heq]
    exact mem_append_right kept hm
  rw [hnil, append_nil] at heq
  rw [heq] at hsame ⊢
  have hsub : kept <+ (g.names p).erase n := by
    have hn : n ∉ kept := fun hn => ((hsame n).mp hn).2 rfl
    exact erase_of_not_mem hn ▸ hkept.erase n
  refine hsub.eq_of_length_le ((hnodup.erase n).length_le_of_subset fun m hm => ?_)
  obtain ⟨hmn, hm⟩ := hnodup.mem_erase_iff.mp hm
  exact (hsame m).mpr ⟨hm, hmn⟩

/-! ### Changes -/

theorem Linked.names_new {g : Graph} (hg : Linked g) (key : String) (isDir : Bool)
    (value : Option String) (p : List String) : (g.new key isDir value).2.names p = g.names p := by
  have hat : (g.new key isDir value).2.at? rootId p = g.at? rootId p :=
    at?_congr (child?_new key isDir value g) rootId p
  cases hp : g.at? rootId p with
  | none => rw [names_of_none hp, names_of_none (hat.trans hp)]
  | some i =>
    have hi := get?_new_of_some key isDir value (hg.get?_of_at? hp)
    rw [names_of_at? hp, names_of_at? (hat.trans hp), vertex_of_get? hi]

section Changes

variable {g g' : Graph} {d c : Nat} {v w : Vertex} {n : String} {p : List String}

theorem Attached.children (ha : Attached g g' d c v w) (hw : w.children = []) (j : Nat) :
    (g'.vertex j).children =
      if j = c then [] else if j = d then bind w.name c v.children else (g.vertex j).children := by
  unfold vertex
  rw [ha j]
  split_ifs
  · exact hw
  · rfl
  · cases g.get? j <;> rfl
  · rfl

theorem Detached.children (hd : Detached g g' d c v n) (hcd : c ≠ d) (j : Nat) :
    (g'.vertex j).children =
      if j = d then v.children.filter (·.1 ≠ n) else (g.vertex j).children := by
  unfold vertex
  rw [hd j]
  by_cases hjc : j = c
  · rw [if_pos hjc, if_neg (hjc ▸ hcd)]
    cases g.get? j <;> rfl
  · rw [if_neg hjc]
    split_ifs <;> rfl

theorem Linked.names_attached (hg : Linked g) (h : Attachable g d c v w n)
    (ha : Attached g g' d c v w) (hw : w.children = []) (hp : g.at? rootId p = some d)
    (q : List String) :
    g'.names q = if p ++ [n] <+: q then []
      else if q = p then (if n ∈ g.names p then g.names p else g.names p ++ [n])
      else g.names q := by
  have hat := hg.at?_attached h ha hw hp q
  by_cases hq : p ++ [n] <+: q
  · rw [if_pos hq]
    by_cases hpn : q = p ++ [n]
    · rw [if_pos hpn] at hat
      rw [names_of_at? hat, ha.children hw, if_pos rfl, map_nil]
    · rw [if_neg hpn, if_pos hq] at hat
      rw [names_of_none hat]
  rw [if_neg (by rintro rfl; exact hq prefix_rfl), if_neg hq] at hat
  rw [if_neg hq]
  by_cases hqp : q = p
  · subst hqp
    have hv : g.names q = v.children.map (·.1) := by
      rw [names_of_at? hp, vertex_of_get? h.directory]
    rw [if_pos rfl, names_of_at? (hat.trans hp), ha.children hw, if_neg (Ne.symm h.ne), if_pos rfl,
      names_bind, h.name, hv]
  rw [if_neg hqp]
  cases hi : g.at? rootId q with
  | none => rw [names_of_none hi, names_of_none (hat.trans hi)]
  | some i =>
    have hid : i ≠ d := by rintro rfl; exact hqp (hg.at?_inj hi hp)
    rw [names_of_at? hi, names_of_at? (hat.trans hi), ha.children hw, if_neg hid]
    split_ifs with hic
    · rw [hic, vertex_of_get? h.node, hw]
    · rfl

theorem Linked.keepsOrder_attached (hg : Linked g) (h : Attachable g d c v w n)
    (ha : Attached g g' d c v w) (hw : w.children = []) (hp : g.at? rootId p = some d) :
    KeepsOrder g g' := by
  intro q
  rw [hg.names_attached h ha hw hp q]
  split_ifs with hpre hqp hmem
  · exact ⟨[], [], rfl, nil_sublist _, by simp⟩
  · exact ⟨g.names p, [], (append_nil _).symm, hqp ▸ Sublist.refl _, by simp⟩
  · exact ⟨g.names p, [n], rfl, hqp ▸ Sublist.refl _, by simpa [hqp] using hmem⟩
  · exact ⟨g.names q, [], (append_nil _).symm, Sublist.refl _, by simp⟩

theorem Linked.keepsOrder_detached (hg : Linked g) (hd : g.get? d = some v)
    (hc : g.child? d n = some c) (h : Detached g g' d c v n) (hp : g.at? rootId p = some d) :
    KeepsOrder g g' := by
  have hcd : c ≠ d := by
    rintro rfl
    exact hg.child?_ne_self hc
  intro q
  refine ⟨g'.names q, [], (append_nil _).symm, ?_, by simp⟩
  have hat := hg.at?_detached hd hc h hp q
  split_ifs at hat with hpre
  · rw [names_of_none hat]
    exact nil_sublist _
  cases hi : g.at? rootId q with
  | none =>
    rw [names_of_none (hat.trans hi)]
    exact nil_sublist _
  | some i =>
    rw [names_of_at? hi, names_of_at? (hat.trans hi), h.children hcd]
    split_ifs with hid
    · rw [hid, vertex_of_get? hd]
      exact (filter_sublist).map _
    · exact Sublist.refl _

theorem keepsOrder_setValue {i : Nat} (hi : g.get? i = some v) (value : Option String) :
    KeepsOrder g (g.setValue i value) := by
  have hat (q : List String) : (g.setValue i value).at? rootId q = g.at? rootId q :=
    at?_congr (child?_setValue g i value) rootId q
  refine keepsOrder_of_names_eq fun q => ?_
  have hchildren (j : Nat) :
      ((g.setValue i value).vertex j).children = (g.vertex j).children := by
    unfold vertex
    rw [get?_setValue hi]
    split_ifs with hji
    · rw [hji, hi]
      rfl
    · rfl
  unfold names
  rw [hat]
  simp only [hchildren]

end Changes

end TreeStore.Graph
