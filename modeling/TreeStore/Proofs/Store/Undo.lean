import TreeStore.Proofs.Store.Tree

/-!
# Taking a change back

Which requests undo each other, with the order of siblings (`Reachable.undo_laws`): a `delete` takes
back a `create` up to the directories that came with it, the state before a write over a leaf takes
the write back, and a `set` is a `create` where nothing is, a `delete` and a `create` in the old
node's place where something is, and nothing when it is repeated.

Each law is one of path maps and one of orders.  Deleting what was created leaves what creating the
directory above it makes (`PathMap.Closed.erase_grow`, `Order.Lists.erase_grow`); creating what was
deleted replaces it, except that the name goes to the end (`PathMap.Closed.grow_erase`,
`Order.grow_erase`).  What a request that may be served makes of the two is said once for each kind
(`Sound.create_ok`, `Sound.set_ok`, `Sound.update_ok`, `Sound.delete_ok`).
-/

namespace TreeStore

theorem strict_prefix_concat_iff {p q : List String} {n : String} :
    q <+: p ++ [n] ∧ q ≠ p ++ [n] ↔ q <+: p := by
  rw [List.prefix_concat_iff, or_and_right, and_not_self_iff, false_or, and_iff_left_iff_imp]
  rintro hq rfl
  exact not_concat_prefix_self p n hq

/-! ### Path maps -/

namespace PathMap

variable {M : PathMap} {p q : List String} {n : String} {e e' : Entry}

/-- Nothing is at the path, and no leaf stands in the way to it. -/
def Vacant (M : PathMap) (p : List String) : Prop := M p = none ∧ ∀ l, ¬ M.Blocks l p

theorem Vacant.obstacle (h : M.Vacant p) : M.obstacle p = none :=
  obstacle_of_free (blocker_eq_none_iff.mpr h.2)

theorem Vacant.ne_nil (hM : M.Closed) (h : M.Vacant p) : p ≠ [] := by
  rintro rfl
  cases hM.root.symm.trans h.1

/-- What leads to a vacant place is a directory, as far as it is there. -/
theorem Vacant.dir_above (h : M.Vacant (p ++ [n])) (hp : M p ≠ none) : M p = some .dir := by
  obtain ⟨e, he⟩ := Option.ne_none_iff_exists'.mp hp
  cases e with
  | dir => exact he
  | leaf v => exact absurd ⟨List.prefix_append p [n], by simp, v, he⟩ (h.2 p)

theorem write_write : (M.write p e).write p e' = M.write p e' := by
  funext x
  unfold write
  split_ifs <;> rfl

theorem write_self (h : M p = some e) : M.write p e = M := by
  funext x
  unfold write
  split_ifs with hx
  · rw [hx, h]
  · rfl

theorem Closed.none_below (hM : M.Closed) (hbare : ∀ n, M (p ++ [n]) = none) (hq : p <+: q)
    (hne : q ≠ p) : M q = none := by
  obtain ⟨rest, rfl⟩ := hq
  cases rest with
  | nil => simp at hne
  | cons n rest => exact hM.none_of_prefix ⟨rest, by simp⟩ (hbare n)

/-- Where nothing is below, nothing goes. -/
theorem Closed.replace_eq_write (hM : M.Closed) (hbare : ∀ n, M (p ++ [n]) = none) (e : Entry) :
    M.replace p e = M.write p e := by
  funext x
  unfold replace write
  split_ifs with hself hbelow
  · rfl
  · exact (hM.none_below hbare hbelow hself).symm
  · rfl

/-- Growing to the directory above a vacant place. -/
theorem Vacant.grow_above (h : M.Vacant (p ++ [n])) (q : List String) :
    M.grow p .dir q = if q <+: p ∧ M q = none then some .dir else M q := by
  unfold grow
  by_cases hq : q = p
  · rw [if_pos hq, hq]
    split_ifs with hp
    · rfl
    · exact (h.dir_above fun hnone => hp ⟨List.prefix_rfl, hnone⟩).symm
  · rw [if_neg hq]

/-- What was created is deleted: the directories above it stay. -/
theorem Closed.erase_grow (hM : M.Closed) (h : M.Vacant (p ++ [n])) :
    (M.grow (p ++ [n]) e).erase (p ++ [n]) = M.grow p .dir := by
  funext x
  rw [h.grow_above, erase]
  split_ifs with hbelow hx hx
  · exact absurd (hbelow.trans hx.1) (not_concat_prefix_self p n)
  · exact (hM.none_of_prefix hbelow h.1).symm
  · have hup : x <+: p ++ [n] ∧ x ≠ p ++ [n] := strict_prefix_concat_iff.mpr hx.1
    rw [grow, if_neg hup.2, if_pos ⟨hup.1, hx.2⟩]
  · have hself : x ≠ p ++ [n] := fun heq => hbelow (heq ▸ List.prefix_rfl)
    have hnot : ¬ (x <+: p ++ [n] ∧ M x = none) := fun hup =>
      hx ⟨strict_prefix_concat_iff.mp ⟨hup.1, hself⟩, hup.2⟩
    rw [grow, if_neg hself, if_neg hnot]

theorem Closed.grow_dir (hM : M.Closed) (hp : M p = some .dir) : M.grow p .dir = M := by
  funext x
  unfold grow
  split_ifs with hself hup
  · rw [hself, hp]
  · exact absurd hup.2 (hM.present_of_prefix hup.1 (by simp [hp]))
  · rfl

/-- What was deleted is created again: it is replaced. -/
theorem Closed.grow_erase (hM : M.Closed) (hp : M p ≠ none) :
    (M.erase p).grow p e = M.replace p e := by
  funext x
  unfold grow erase replace
  by_cases hself : x = p
  · rw [if_pos hself, if_pos hself]
  by_cases hbelow : p <+: x
  · have hup : ¬ x <+: p := fun hup => hself (hup.eq_of_length_le hbelow.length_le)
    simp [hself, hbelow, hup]
  · have hthere : ¬ (x <+: p ∧ M x = none) := fun h => hM.present_of_prefix h.1 hp h.2
    simp [hself, hbelow, hthere]

end PathMap

/-! ### Orders -/

namespace Order

variable {o : Order} {M : PathMap} {p q : List String} {n : String}

/-- The names in each directory are those of what is there. -/
def Lists (o : Order) (M : PathMap) : Prop := ∀ q n, n ∈ o q ↔ M (q ++ [n]) ≠ none

theorem Lists.eq_nil (h : o.Lists M) (hq : ∀ n, M (q ++ [n]) = none) : o q = [] :=
  List.eq_nil_iff_forall_not_mem.mpr fun n hn => (h q n).mp hn (hq n)

/-- Where nothing is below, nothing goes. -/
theorem Lists.clear_eq (h : o.Lists M) (hM : M.Closed) (hbare : ∀ n, M (p ++ [n]) = none) :
    o.clear p = o := by
  funext q
  unfold clear
  split_ifs with hq
  · refine (h.eq_nil fun n => hM.none_below hbare (hq.trans (List.prefix_append q [n])) ?_).symm
    exact fun heq => not_concat_prefix_self q n (heq ▸ hq)
  · rfl

/-- A name that came goes: those on the way to it stay. -/
theorem Lists.erase_grow (h : o.Lists M) (hM : M.Closed) (hp : M (p ++ [n]) = none) :
    (o.grow M (p ++ [n])).erase (p ++ [n]) = o.grow M p := by
  funext q
  unfold erase
  split_ifs with hbelow
  · have hlong : p.length ≤ q.length := by
      have := hbelow.length_le
      rw [List.length_append] at this
      omega
    have hnil : o q = [] :=
      h.eq_nil fun m => hM.none_of_prefix (hbelow.trans (List.prefix_append q [m])) hp
    rw [grow, next_of_long hlong, hnil]
  · rw [Graph.childOf_concat]
    by_cases hq : p = q
    · subst hq
      have hn : n ∉ o p := fun hn => (h p n).mp hn hp
      rw [if_pos rfl, grow, grow, next_self, next_of_long le_rfl]
      simp [hp, List.erase_append_right _ hn]
    · rw [if_neg hq, grow, grow, next_concat (Ne.symm hq)]

theorem grow_of_present (hM : M.Closed) (hp : M p ≠ none) : o.grow M p = o := by
  funext q
  unfold grow
  cases hn : next q p with
  | none => rfl
  | some n => exact if_neg (hM.present_of_prefix (next_eq_some_iff.mp hn) hp)

/-- A name that went comes again: it stands behind its siblings. -/
theorem grow_erase (hM : M.Closed) (hp : M (p ++ [n]) ≠ none) (q : List String) :
    (o.erase (p ++ [n])).grow (M.erase (p ++ [n])) (p ++ [n]) q =
      if q = p then (o p).erase n ++ [n] else o.clear (p ++ [n]) q := by
  by_cases hq : q = p
  · rw [if_pos hq, hq, grow, next_self]
    simp [PathMap.erase, erase, Graph.childOf_concat, not_concat_prefix_self]
  have herase : o.erase (p ++ [n]) q = o.clear (p ++ [n]) q := by
    rw [erase, clear, Graph.childOf_concat, if_neg (Ne.symm hq)]
  rw [if_neg hq, grow, next_concat hq, ← herase]
  cases hm : next q p with
  | none => rfl
  | some m =>
    -- the directories on the way are still there
    have hway := next_eq_some_iff.mp hm
    have hlong : ¬ p ++ [n] <+: q ++ [m] := fun h => not_concat_prefix_self p n (h.trans hway)
    have hthere := hM.present_of_prefix (hway.trans (List.prefix_append p [n])) hp
    simp [PathMap.erase, hlong, hthere]

end Order

namespace Store

open TreeStore.Path

/-- The tree of `u` is the tree of `s` and the directories above `p` that were missing, as a chain:
each becomes the last child of the one above it, those that are new have no other child, and the
last of them has none. -/
structure Chained (s u : Store) (p : List String) : Prop where
  pathMap : ∀ q, u.pathMap q =
    if q <+: p ∧ q ≠ p ∧ s.pathMap q = none then some .dir else s.pathMap q
  names : ∀ q n, q ++ [n] <+: p → u.graph.names q =
    if q ++ [n] ≠ p ∧ s.pathMap (q ++ [n]) = none then s.graph.names q ++ [n] else s.graph.names q
  elsewhere : ∀ q, (∀ n, ¬ q ++ [n] <+: p) → u.graph.names q = s.graph.names q
  chain : ∀ q n, q ++ [n] <+: p → s.pathMap q = none →
    u.graph.names q = if q ++ [n] = p then [] else [n]

section Sound

variable {s t u : Store} {messages : Messages} {r : Request} {result : Result} {p : List String}
  {n k : String} {isDir : Bool} {v w : Option String} (hs : s.Sound)
include hs

theorem Sound.lists_names : Order.Lists s.graph.names s.pathMap := fun _ _ => hs.mem_names

/-! ### Requests that succeed -/

section Requests

variable (messages : Messages) (isDir : Bool) (v : Option String)
  (hpath : split (normalize k) = p)
include hpath

theorem Sound.create_ok (h : s.pathMap.Vacant p) :
    ∃ result t, perform messages (.create k isDir v) s = .ok result t ∧ t.Sound ∧
      t.pathMap = s.pathMap.grow p (.new isDir v) ∧
      t.graph.names = Order.grow s.graph.names s.pathMap p ∧
      result.node = .mk (normalize k) isDir v := by
  obtain rfl : (Request.create k isDir v).path = p := hpath
  have hr : (Request.create k isDir v).refusal s.pathMap = none := by
    rw [Request.refusal, if_neg (not_not.mpr h.1), h.obstacle]
  obtain ⟨result, t, hok, ht, hmap, hnames, -⟩ := hs.perform_ok messages hr
  have hanswer := hs.perform_answer hok
  rw [Request.effect] at hmap
  rw [Request.reorder] at hnames
  rw [Request.answer, Option.some.injEq] at hanswer
  exact ⟨result, t, hok, ht, hmap, hnames, by rw [← hanswer, Request.key]⟩

theorem Sound.set_ok (hroot : p ≠ []) (hfree : s.pathMap.obstacle p = none) :
    ∃ result t, perform messages (.set k isDir v) s = .ok result t ∧ t.Sound ∧
      t.pathMap = (if s.pathMap p = none then s.pathMap.grow p (.new isDir v)
        else s.pathMap.replace p (.new isDir v)) ∧
      t.graph.names = (if s.pathMap p = none then Order.grow s.graph.names s.pathMap p
        else Order.clear s.graph.names p) ∧
      result.node = .mk (normalize k) isDir v ∧ result.prev = s.graph.snapshot? p := by
  obtain rfl : (Request.set k isDir v).path = p := hpath
  have hr : (Request.set k isDir v).refusal s.pathMap = none := by
    rw [Request.refusal, if_neg hroot, hfree]
  obtain ⟨result, t, hok, ht, hmap, hnames, -⟩ := hs.perform_ok messages hr
  have hanswer := hs.perform_answer hok
  rw [Request.effect] at hmap
  rw [Request.reorder] at hnames
  rw [Request.answer, Option.some.injEq] at hanswer
  exact ⟨result, t, hok, ht, hmap, hnames, by rw [← hanswer, Request.key], by rw [← hanswer]⟩

theorem Sound.update_ok (hleaf : s.pathMap p = some (.leaf w)) :
    ∃ result t, perform messages (.update k v) s = .ok result t ∧ t.Sound ∧
      t.pathMap = s.pathMap.write p (.leaf v) ∧ t.graph.names = s.graph.names ∧
      result.prev = s.graph.snapshot? p := by
  obtain rfl : (Request.update k v).path = p := hpath
  have hr : (Request.update k v).refusal s.pathMap = none := by
    rw [Request.refusal, hs.closed.absence_eq_none_iff.mpr (by simp [hleaf]), Option.none_or,
      if_neg (by simp [hleaf])]
  obtain ⟨result, t, hok, ht, hmap, hnames, -⟩ := hs.perform_ok messages hr
  have hanswer := hs.perform_answer hok
  rw [Request.effect] at hmap
  rw [Request.reorder] at hnames
  rw [Request.answer, Option.some.injEq] at hanswer
  exact ⟨result, t, hok, ht, hmap, hnames, by rw [← hanswer]⟩

theorem Sound.delete_ok {recursive : Bool} (hroot : p ≠ []) (hthere : s.pathMap p ≠ none)
    (hbelow : recursive = true ∨ ¬ s.pathMap.HasChild p) :
    ∃ result t, perform messages (.delete k recursive false) s = .ok result t ∧ t.Sound ∧
      t.pathMap = s.pathMap.erase p ∧ t.graph.names = Order.erase s.graph.names p := by
  obtain rfl : (Request.delete k recursive false).path = p := hpath
  have hr : (Request.delete k recursive false).refusal s.pathMap = none := by
    rw [Request.refusal, if_neg hroot, hs.closed.absence_eq_none_iff.mpr hthere, Option.none_or,
      if_neg (by simp), if_neg]
    rintro ⟨hchild, hnot⟩
    exact hbelow.elim (by simp [hnot]) (absurd hchild)
  obtain ⟨result, t, hok, ht, hmap, hnames, -⟩ := hs.perform_ok messages hr
  rw [Request.effect] at hmap
  rw [Request.reorder] at hnames
  exact ⟨result, t, hok, ht, hmap, hnames⟩

end Requests

/-! ### Deleting what was created -/

theorem Sound.chained (h : s.pathMap.Vacant (p ++ [n])) (hmap : u.pathMap = s.pathMap.grow p .dir)
    (hnames : u.graph.names = Order.grow s.graph.names s.pathMap p) : Chained s u (p ++ [n]) := by
  have hway (q : List String) (m : String) (hq : q ++ [m] <+: p ++ [n]) : u.graph.names q =
      if q ++ [m] ≠ p ++ [n] ∧ s.pathMap (q ++ [m]) = none then s.graph.names q ++ [m]
      else s.graph.names q := by
    rw [hnames, Order.grow]
    by_cases heq : q ++ [m] = p ++ [n]
    · obtain rfl := (List.append_inj' heq rfl).1
      rw [Order.next_of_long le_rfl, if_neg (not_and.mpr fun hne => absurd heq hne)]
    · rw [Order.next_eq_some_iff.mpr (strict_prefix_concat_iff.mp ⟨hq, heq⟩)]
      simp [heq]
  refine ⟨fun q => ?_, hway, fun q hq => ?_, fun q m hq hnone => ?_⟩
  · rw [hmap, h.grow_above]
    simp only [← and_assoc, strict_prefix_concat_iff]
  · have hnext : Order.next q p = none := by
      refine Option.eq_none_iff_forall_ne_some.mpr fun m hm => hq m ?_
      exact (Order.next_eq_some_iff.mp hm).trans (List.prefix_append p [n])
    rw [hnames, Order.grow, hnext]
  · have hbelow := hs.closed.none_of_prefix (List.prefix_append q [m]) hnone
    have hnil : s.graph.names q = [] :=
      hs.lists_names.eq_nil fun j => hs.closed.none_of_prefix (List.prefix_append q [j]) hnone
    rw [hway q m hq, hnil]
    split_ifs with hnew hself hself
    · exact absurd hself hnew.1
    · rfl
    · rfl
    · exact absurd ⟨hself, hbelow⟩ hnew

theorem Sound.delete_created (hpath : split (normalize k) = p ++ [n])
    (h : s.pathMap.Vacant (p ++ [n])) (m₁ m₂ : Messages) (isDir : Bool) (v : Option String) :
    ∃ r₁ t r₂ u, perform m₁ (.create k isDir v) s = .ok r₁ t ∧
      perform m₂ (.delete k false false) t = .ok r₂ u ∧ u.Sound ∧
      u.pathMap = s.pathMap.grow p .dir ∧
      u.graph.names = Order.grow s.graph.names s.pathMap p := by
  have hM := hs.closed
  obtain ⟨r₁, t, hok₁, ht, hmap₁, hnames₁, -⟩ := hs.create_ok m₁ isDir v hpath h
  have hthere : t.pathMap (p ++ [n]) ≠ none := by
    rw [hmap₁, PathMap.grow_self]
    exact Option.some_ne_none _
  have hbare : ¬ t.pathMap.HasChild (p ++ [n]) := by
    rintro ⟨m, hm⟩
    rw [hmap₁, PathMap.grow_elsewhere (not_concat_prefix_self _ m)] at hm
    exact hm (hM.none_of_prefix (List.prefix_append _ [m]) h.1)
  obtain ⟨r₂, u, hok₂, hu, hmap₂, hnames₂⟩ :=
    ht.delete_ok m₂ hpath (h.ne_nil hM) hthere (Or.inr hbare)
  rw [hmap₁, hM.erase_grow h] at hmap₂
  rw [hnames₁, hs.lists_names.erase_grow hM h.1] at hnames₂
  exact ⟨r₁, t, r₂, u, hok₁, hok₂, hu, hmap₂, hnames₂⟩

/-! ### Writing over what is there -/

/-- A `set` over a node without children changes what stands there, and nothing else. -/
theorem Sound.set_bare (hpath : split (normalize k) = p) (hroot : p ≠ [])
    (hthere : s.pathMap p ≠ none) (hbare : ∀ n, s.pathMap (p ++ [n]) = none) (messages : Messages)
    (isDir : Bool) (v : Option String) :
    ∃ result t, perform messages (.set k isDir v) s = .ok result t ∧ t.Sound ∧
      t.pathMap = s.pathMap.write p (.new isDir v) ∧ t.graph.names = s.graph.names ∧
      result.prev = s.graph.snapshot? p := by
  have hM := hs.closed
  have hfree := PathMap.obstacle_of_free (hM.blocker_of_present hthere)
  obtain ⟨result, t, hok, ht, hmap, hnames, -, hprev⟩ :=
    hs.set_ok messages isDir v hpath hroot hfree
  rw [if_neg hthere, hM.replace_eq_write hbare] at hmap
  rw [if_neg hthere, hs.lists_names.clear_eq hM hbare] at hnames
  exact ⟨result, t, hok, ht, hmap, hnames, hprev⟩

/-- A leaf gets another value, by either of the requests that may give it one. -/
theorem Sound.rewrite_leaf (hpath : split (normalize k) = p)
    (hleaf : s.pathMap p = some (.leaf w)) (messages : Messages)
    (hr : r = .set k false v ∨ r = .update k v) :
    ∃ result t prev, perform messages r s = .ok result t ∧ result.prev = some prev ∧
      prev.value = w ∧ t.Sound ∧ t.pathMap = s.pathMap.write p (.leaf v) ∧
      t.graph.names = s.graph.names := by
  have hM := hs.closed
  have hthere : s.pathMap p ≠ none := by simp [hleaf]
  obtain ⟨prev, hprev⟩ := Graph.exists_snapshot?_iff.mpr hthere
  have hentry := (hs.linked.pathMap_of_snapshot? hprev).symm.trans hleaf
  have hvalue : prev.value = w := by
    cases prev with
    | leaf key value => exact Entry.leaf.inj (Option.some.inj hentry)
    | dir key children => cases Option.some.inj hentry
  rcases hr with rfl | rfl
  · have hroot : p ≠ [] := by
      rintro rfl
      cases hM.root.symm.trans hleaf
    have hbare (n : String) : s.pathMap (p ++ [n]) = none := by
      by_contra hn
      cases (hM.up p n hn).symm.trans hleaf
    obtain ⟨result, t, hok, ht, hmap, hnames, hbefore⟩ :=
      hs.set_bare hpath hroot hthere hbare messages false v
    exact ⟨result, t, prev, hok, hbefore.trans hprev, hvalue, ht, hmap, hnames⟩
  · obtain ⟨result, t, hok, ht, hmap, hnames, hbefore⟩ := hs.update_ok messages v hpath hleaf
    exact ⟨result, t, prev, hok, hbefore.trans hprev, hvalue, ht, hmap, hnames⟩

/-- A `set` that succeeded succeeds again and changes nothing. -/
theorem Sound.set_again (h : perform messages (.set k isDir v) s = .ok result t)
    (messages : Messages) :
    ∃ result' u, perform messages (.set k isDir v) t = .ok result' u ∧ u.tree = t.tree := by
  obtain ⟨hr, ht, hmap, -⟩ := hs.of_ok h
  obtain ⟨p, hpath⟩ : ∃ p, (Request.set k isDir v).path = p := ⟨_, rfl⟩
  have hw : (Request.set k isDir v).writes p = some (.new isDir v) := by
    rw [Request.writes, if_pos hpath]
  have hself := Request.effect_of_writes (M := s.pathMap) hw
  have hbare := Request.effect_bare hs.closed hr hw
  rw [← hmap] at hself hbare
  have hroot : p ≠ [] := by
    rintro rfl
    rw [Request.refusal, if_pos hpath] at hr
    cases hr
  obtain ⟨result', u, hok, hu, hmap', hnames', -⟩ :=
    ht.set_bare hpath hroot (by simp [hself]) hbare messages isDir v
  rw [PathMap.write_self hself] at hmap'
  exact ⟨result', u, hok, (ht.tree_eq_iff hu).mpr ⟨hmap', hnames'⟩⟩

/-! ### Creating where nothing is, and in the place of what was deleted -/

theorem Sound.set_vacant (hpath : split (normalize k) = p) (h : s.pathMap.Vacant p)
    (m₁ m₂ : Messages) (isDir : Bool) (v : Option String) :
    ∃ r₁ t r₂ u, perform m₁ (.set k isDir v) s = .ok r₁ t ∧
      perform m₂ (.create k isDir v) s = .ok r₂ u ∧ t.tree = u.tree ∧ r₁.node = r₂.node := by
  obtain ⟨r₁, t, hok₁, ht, hmap₁, hnames₁, hnode₁, -⟩ :=
    hs.set_ok m₁ isDir v hpath (h.ne_nil hs.closed) h.obstacle
  obtain ⟨r₂, u, hok₂, hu, hmap₂, hnames₂, hnode₂⟩ := hs.create_ok m₂ isDir v hpath h
  rw [if_pos h.1, ← hmap₂] at hmap₁
  rw [if_pos h.1, ← hnames₂] at hnames₁
  exact ⟨r₁, t, r₂, u, hok₁, hok₂, (hu.tree_eq_iff ht).mpr ⟨hmap₁, hnames₁⟩,
    hnode₁.trans hnode₂.symm⟩

theorem Sound.create_deleted (hpath : split (normalize k) = p ++ [n])
    (hthere : s.pathMap (p ++ [n]) ≠ none) (m₁ m₂ m₃ : Messages) (isDir : Bool)
    (v : Option String) :
    ∃ r₁ t r₂ u r₃ w, perform m₁ (.set k isDir v) s = .ok r₁ t ∧
      perform m₂ (.delete k true false) s = .ok r₂ u ∧
      perform m₃ (.create k isDir v) u = .ok r₃ w ∧ w.pathMap = t.pathMap ∧
      t.graph.names p = s.graph.names p ∧
      w.graph.names p = (s.graph.names p).erase n ++ [n] ∧
      ∀ q, q ≠ p → w.graph.names q = t.graph.names q := by
  have hM := hs.closed
  have hroot : p ++ [n] ≠ [] := by simp
  have hfree := PathMap.obstacle_of_free (hM.blocker_of_present hthere)
  obtain ⟨r₁, t, hok₁, -, hmap₁, hnames₁, -⟩ := hs.set_ok m₁ isDir v hpath hroot hfree
  obtain ⟨r₂, u, hok₂, hu, hmap₂, hnames₂⟩ :=
    hs.delete_ok m₂ hpath hroot hthere (Or.inl rfl)
  have hgone : u.pathMap (p ++ [n]) = none := by
    rw [hmap₂, PathMap.erase, if_pos List.prefix_rfl]
  have hdir : u.pathMap p = some .dir := by
    rw [hmap₂, PathMap.erase, if_neg (not_concat_prefix_self p n)]
    exact hM.up p n hthere
  have hvacant : u.pathMap.Vacant (p ++ [n]) :=
    ⟨hgone, PathMap.blocker_eq_none_iff.mp (hu.closed.blocker_of_gap hdir hgone [])⟩
  obtain ⟨r₃, w, hok₃, -, hmap₃, hnames₃, -⟩ := hu.create_ok m₃ isDir v hpath hvacant
  rw [if_neg hthere] at hmap₁ hnames₁
  have horder (q : List String) : w.graph.names q = if q = p then (s.graph.names p).erase n ++ [n]
      else t.graph.names q := by
    rw [hnames₃, hnames₂, hmap₂, hnames₁, Order.grow_erase hM hthere]
  refine ⟨r₁, t, r₂, u, r₃, w, hok₁, hok₂, hok₃, ?_, ?_, (horder p).trans (if_pos rfl),
    fun q hq => (horder q).trans (if_neg hq)⟩
  · rw [hmap₃, hmap₂, hmap₁, hM.grow_erase hthere]
  · rw [hnames₁, Order.clear, if_neg (not_concat_prefix_self p n)]

end Sound

/-- Which requests take each other back, with the order of siblings.  Creating a node where it may
be created and deleting it leaves the directories that came with it, and nothing if the one above it
was there.  The value in the state before a write over a leaf takes the write back, by a `set` or an
`update`.  A `set` where nothing is makes the tree and the answer of a `create`; over something
other than the root it makes the tree of a `delete` and a `create`, but the name keeps its place
instead of becoming the last one.  A `set` that succeeded changes nothing when it is repeated. -/
theorem Reachable.undo_laws {s : Store} (hs : s.Reachable) (k : String) (m₁ m₂ m₃ : Messages) :
    (∀ isDir v, s.pathMap.Vacant (split (normalize k)) →
      ∃ r₁ t r₂ u, perform m₁ (.create k isDir v) s = .ok r₁ t ∧
        perform m₂ (.delete k false false) t = .ok r₂ u ∧ Chained s u (split (normalize k)) ∧
        ∀ p n, split (normalize k) = p ++ [n] → s.pathMap p ≠ none → u.tree = s.tree) ∧
    (∀ v, (∃ w, s.pathMap (split (normalize k)) = some (.leaf w)) →
      ∀ r₁, r₁ = .set k false v ∨ r₁ = .update k v →
        ∃ result t prev, perform m₁ r₁ s = .ok result t ∧ result.prev = some prev ∧
          ∀ r₂, r₂ = .set k false prev.value ∨ r₂ = .update k prev.value →
            ∃ result' u, perform m₂ r₂ t = .ok result' u ∧ u.tree = s.tree) ∧
    (∀ isDir v, s.pathMap.Vacant (split (normalize k)) →
      ∃ r₁ t r₂ u, perform m₁ (.set k isDir v) s = .ok r₁ t ∧
        perform m₂ (.create k isDir v) s = .ok r₂ u ∧ t.tree = u.tree ∧ r₁.node = r₂.node) ∧
    (∀ isDir v, s.Has k → normalize k ≠ "/" →
      ∃ p n r₁ t r₂ u r₃ w, split (normalize k) = p ++ [n] ∧
        perform m₁ (.set k isDir v) s = .ok r₁ t ∧
        perform m₂ (.delete k true false) s = .ok r₂ u ∧
        perform m₃ (.create k isDir v) u = .ok r₃ w ∧ w.pathMap = t.pathMap ∧
        t.graph.names p = s.graph.names p ∧
        w.graph.names p = (s.graph.names p).erase n ++ [n] ∧
        ∀ q, q ≠ p → w.graph.names q = t.graph.names q) ∧
    ∀ isDir v result t, perform m₁ (.set k isDir v) s = .ok result t →
      ∃ result' u, perform m₂ (.set k isDir v) t = .ok result' u ∧ u.tree = t.tree := by
  have hsound := hs.sound
  refine ⟨fun isDir v h => ?_, fun v ⟨w, hleaf⟩ r₁ hr₁ => ?_,
    fun isDir v h => hsound.set_vacant rfl h m₁ m₂ isDir v, fun isDir v hhas hroot => ?_,
    fun isDir v result t h => hsound.set_again h m₂⟩
  · obtain ⟨p, n, hpath⟩ := (List.eq_nil_or_concat' _).resolve_left (h.ne_nil hsound.closed)
    rw [hpath] at h ⊢
    obtain ⟨r₁, t, r₂, u, hok₁, hok₂, hu, hmap, hnames⟩ :=
      hsound.delete_created hpath h m₁ m₂ isDir v
    refine ⟨r₁, t, r₂, u, hok₁, hok₂, hsound.chained h hmap hnames, fun q m hq hthere => ?_⟩
    obtain rfl := (List.append_inj' hq rfl).1
    refine (hsound.tree_eq_iff hu).mpr ⟨?_, ?_⟩
    · rw [hmap, hsound.closed.grow_dir (h.dir_above hthere)]
    · rw [hnames, Order.grow_of_present hsound.closed hthere]
  · obtain ⟨result, t, prev, hok, hprev, hvalue, ht, hmap, hnames⟩ :=
      hsound.rewrite_leaf rfl hleaf m₁ hr₁
    have hleaf' : t.pathMap (split (normalize k)) = some (.leaf v) := by
      rw [hmap, PathMap.write, if_pos rfl]
    refine ⟨result, t, prev, hok, hprev, fun r₂ hr₂ => ?_⟩
    rw [hvalue] at hr₂
    obtain ⟨result', u, -, hok', -, -, hu, hmap', hnames'⟩ := ht.rewrite_leaf rfl hleaf' m₂ hr₂
    refine ⟨result', u, hok', (hsound.tree_eq_iff hu).mpr ⟨?_, hnames'.trans hnames⟩⟩
    rw [hmap', hmap, PathMap.write_write, PathMap.write_self hleaf]
  · have hne : split (normalize k) ≠ [] := (normalize_eq_root_iff k).not.mp hroot
    obtain ⟨p, n, hpath⟩ := (List.eq_nil_or_concat' _).resolve_left hne
    have hthere := hsound.has_iff.mp hhas
    rw [hpath] at hthere
    obtain ⟨r₁, t, r₂, u, r₃, w, h⟩ := hsound.create_deleted hpath hthere m₁ m₂ m₃ isDir v
    exact ⟨p, n, r₁, t, r₂, u, r₃, w, hpath, h⟩

/-- The first of two siblings is replaced in its place, or comes back behind the other one. -/
theorem undo_laws_place :
    ∃ s : Store, s.Reachable ∧ ∃ r₁ t r₂ u r₃ w,
      perform Messages.empty (.set "a//x" false none) s = .ok r₁ t ∧
      perform Messages.empty (.delete "a//x" true false) s = .ok r₂ u ∧
      perform Messages.empty (.create "a//x" false none) u = .ok r₃ w ∧ w.pathMap = t.pathMap ∧
      t.graph.names ["a"] = ["x", "y"] ∧ w.graph.names ["a"] = ["y", "x"] := by
  obtain ⟨s, hs, hx, hnames⟩ : ∃ s : Store, s.Reachable ∧ s.pathMap ["a", "x"] = some .dir ∧
      s.graph.names ["a"] = ["x", "y"] :=
    ⟨_, .request Messages.empty (.create "/a/y" false none)
      (.request Messages.empty (.create "/a/x/z" false none) (.new {})), rfl, rfl⟩
  have hat : split (normalize "a//x") = ["a", "x"] := by decide +kernel
  have hhas : s.Has "a//x" := hs.sound.has_iff.mpr (by simp [hat, hx])
  obtain ⟨-, -, -, hplace, -⟩ :=
    hs.undo_laws "a//x" Messages.empty Messages.empty Messages.empty
  obtain ⟨p, n, r₁, t, r₂, u, r₃, w, hpath, hok₁, hok₂, hok₃, hmap, hkept, hlast, -⟩ :=
    hplace false none hhas (by decide +kernel)
  have hsame : ["a"] ++ ["x"] = p ++ [n] := hat.symm.trans hpath
  obtain ⟨rfl, hn⟩ := List.append_inj' hsame rfl
  obtain rfl := List.singleton_inj.mp hn
  rw [hnames] at hkept hlast
  exact ⟨s, hs, r₁, t, r₂, u, r₃, w, hok₁, hok₂, hok₃, hmap, hkept, hlast⟩

end Store

end TreeStore
