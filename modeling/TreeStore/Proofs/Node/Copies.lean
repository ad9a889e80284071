import Mathlib.Data.List.Basic
import Mathlib.Data.List.Nodup
import Mathlib.Data.List.Perm.Basic
import Mathlib.Data.String.Basic
import TreeStore.Node

/-!
# Copies of nodes

A copy is made level by level: the children of a copy are the copies of the children, listed in
their own order or sorted by name, and none where the depth ends (`children_clone`).  So a sorted
copy holds copies of the same nodes (`subtree_clone_perm`), cutting a whole copy gives what a copy
cut there would have been (`clone_clone`, and `clone_comp` for copies of copies in general), and
whatever node is found in a copy, sorted or not, is found in the other one as well
(`mem_subtree_clone`).
-/

namespace TreeStore.Node

/-- From the leaves up: a directory has a property if all its children have it. -/
@[elab_as_elim]
theorem bottom_up {P : Node → Prop} (leaf : ∀ k v, P (.leaf k v))
    (dir : ∀ k cs, (∀ c ∈ cs, P c) → P (.dir k cs)) : ∀ n, P n
  | .leaf k v => leaf k v
  | .dir k cs => dir k cs fun c _ => bottom_up leaf dir c

/-! ### Sorting by name -/

theorem sortByName_perm (ns : List Node) : (sortByName ns).Perm ns := List.mergeSort_perm ns _

theorem pairwise_sortByName (ns : List Node) :
    (sortByName ns).Pairwise fun a b => a.name ≤ b.name := by
  have hpair : (sortByName ns).Pairwise fun a b => decide (a.name ≤ b.name) = true :=
    List.pairwise_mergeSort
      (fun a b c hab hbc => by
        rw [decide_eq_true_eq] at hab hbc ⊢
        exact le_trans hab hbc)
      (fun a b => by
        rw [Bool.or_eq_true, decide_eq_true_eq, decide_eq_true_eq]
        exact le_total a.name b.name) ns
  exact hpair.imp of_decide_eq_true

/-- Different names come in strictly increasing order. -/
theorem pairwise_lt_sortByName {ns : List Node} (hnames : (ns.map name).Nodup) :
    ((sortByName ns).map name).Pairwise (· < ·) := by
  have hnodup := ((sortByName_perm ns).map name).nodup_iff.mpr hnames
  have hle : ((sortByName ns).map name).Pairwise (· ≤ ·) :=
    List.pairwise_map.mpr (pairwise_sortByName ns)
  exact (hle.and hnodup).imp fun h => lt_of_le_of_ne h.1 h.2

/-- Nodes with different names are sorted in one way only. -/
theorem sortByName_eq_of_perm {ns ms : List Node} (h : ns.Perm ms) (hnames : (ns.map name).Nodup) :
    sortByName ns = sortByName ms := by
  have hperm := (sortByName_perm ns).trans (h.trans (sortByName_perm ms).symm)
  refine hperm.eq_of_pairwise (fun a b ha hb hab hba => ?_) (pairwise_sortByName ns)
    (pairwise_sortByName ms)
  have ha := (sortByName_perm ns).subset ha
  have hb := h.symm.subset ((sortByName_perm ms).subset hb)
  exact List.inj_on_of_nodup_map hnames ha hb (le_antisymm hab hba)

/-- Sorting does not look at more than the names. -/
theorem sortByName_map {f : Node → Node} (hf : ∀ n, (f n).name = n.name) (ns : List Node) :
    sortByName (ns.map f) = (sortByName ns).map f :=
  (List.map_mergeSort fun a _ b _ => by rw [hf, hf]).symm

theorem listing_perm (n : Node) (sorted : Bool) : (n.listing sorted).Perm n.children := by
  unfold listing
  split_ifs
  · exact sortByName_perm n.children
  · exact .refl _

theorem sortByName_sortByName (ns : List Node) : sortByName (sortByName ns) = sortByName ns :=
  List.mergeSort_of_pairwise ((pairwise_sortByName ns).imp decide_eq_true)

theorem listing_listing (k : String) (cs : List Node) (sorted sorted' : Bool) :
    (dir k ((dir k cs).listing sorted)).listing sorted' =
      (dir k cs).listing (sorted || sorted') := by
  cases sorted with
  | false => rfl
  | true =>
    cases sorted' with
    | false => rfl
    | true => exact sortByName_sortByName cs

theorem listing_map (k : String) {f : Node → Node} (hf : ∀ c, (f c).name = c.name)
    (cs : List Node) (sorted : Bool) :
    (dir k (cs.map f)).listing sorted = ((dir k cs).listing sorted).map f := by
  cases sorted with
  | false => rfl
  | true => exact sortByName_map hf cs

/-! ### One level -/

theorem name_clone (depth : Depth) (sorted : Bool) (n : Node) :
    (n.clone depth sorted).name = n.name := by
  rw [name, name, key_clone]

theorem map_name_clone (depth : Depth) (sorted : Bool) (cs : List Node) :
    (cs.map (clone depth sorted)).map name = cs.map name := by
  rw [List.map_map]
  exact List.map_congr_left fun c _ => name_clone depth sorted c

theorem map_key_clone (depth : Depth) (sorted : Bool) (cs : List Node) :
    (cs.map (clone depth sorted)).map key = cs.map key := by
  rw [List.map_map]
  exact List.map_congr_left fun c _ => key_clone depth sorted c

theorem clone_dir (depth : Depth) (sorted : Bool) (k : String) (cs : List Node) :
    (dir k cs).clone depth sorted =
      dir k (if depth.reaches then ((dir k cs).listing sorted).map (clone depth.below sorted)
        else []) := by
  rw [clone, cloneAll_eq_map]
  cases depth.reaches with
  | false => rfl
  | true =>
    cases sorted with
    | false => rfl
    | true => exact congrArg (dir k) (sortByName_map (name_clone depth.below true) cs)

theorem clone_sorted_dir (k : String) (cs : List Node) :
    (dir k cs).clone none true = dir k (sortByName (cs.map (clone none true))) := by
  rw [clone, cloneAll_eq_map]
  rfl

theorem children_clone (depth : Depth) (sorted : Bool) (n : Node) :
    (n.clone depth sorted).children =
      if depth.reaches then (n.listing sorted).map (clone depth.below sorted) else [] := by
  cases n with
  | leaf k v => cases sorted <;> simp [clone, children, listing, sortByName]
  | dir k cs => rw [clone_dir, children]

theorem isDir_clone (depth : Depth) (sorted : Bool) (n : Node) :
    (n.clone depth sorted).isDir = n.isDir := by
  cases n with
  | leaf k v => rfl
  | dir k cs => rw [clone_dir, isDir, isDir]

theorem value_clone (depth : Depth) (sorted : Bool) (n : Node) :
    (n.clone depth sorted).value = n.value := by
  cases n with
  | leaf k v => rfl
  | dir k cs => rw [clone_dir, value, value]

/-- What a node shows of itself. -/
def label (n : Node) : String × Bool × Option String := (n.key, n.isDir, n.value)

theorem label_clone (depth : Depth) (sorted : Bool) (n : Node) :
    (n.clone depth sorted).label = n.label := by
  rw [label, key_clone, isDir_clone, value_clone, label]

theorem map_label_clone (depth : Depth) (sorted : Bool) (cs : List Node) :
    (cs.map (clone depth sorted)).map label = cs.map label := by
  rw [List.map_map]
  exact List.map_congr_left fun c _ => label_clone depth sorted c

theorem subtree_eq (n : Node) : n.subtree = n :: n.children.flatMap subtree := by
  cases n with
  | leaf k v => rfl
  | dir k cs => rw [subtree, subtreeAll_eq_flatMap, children]

/-- What is below a node stands in one piece behind it. -/
theorem subtree_infix {n d : Node} (h : d ∈ n.subtree) : d.subtree <:+: n.subtree := by
  induction n using bottom_up with
  | leaf k v =>
    obtain rfl := List.mem_singleton.mp h
    exact List.infix_rfl
  | dir k cs ih =>
    rw [subtree_eq] at h
    rcases List.mem_cons.mp h with rfl | h
    · exact List.infix_rfl
    · obtain ⟨c, hc, hd⟩ := List.mem_flatMap.mp h
      have hlevel := (ih c hc hd).trans (List.infix_flatMap_of_mem hc subtree)
      rw [subtree_eq (dir k cs)]
      exact List.infix_cons hlevel

theorem mem_subtree_of_child {n c m : Node} (hc : c ∈ n.children) (hm : m ∈ c.subtree) :
    m ∈ n.subtree := by
  rw [subtree_eq]
  exact List.mem_cons_of_mem _ (List.mem_flatMap.mpr ⟨c, hc, hm⟩)

/-- The node and its children, without what is further below. -/
theorem cons_children_sublist (n : Node) : (n :: n.children).Sublist n.subtree := by
  have hself (cs : List Node) : cs.Sublist (cs.flatMap subtree) := by
    induction cs with
    | nil => exact .slnil
    | cons c cs ih =>
      rw [List.flatMap_cons, subtree_eq c, List.cons_append]
      exact .cons_cons c (ih.trans (List.sublist_append_right ..))
  rw [subtree_eq n]
  exact .cons_cons n (hself n.children)

theorem children_clone_zero (sorted : Bool) (n : Node) :
    (n.clone (some 0) sorted).children = [] := children_clone (some 0) sorted n

theorem children_clone_one (sorted : Bool) (n : Node) :
    (n.clone (some 1) sorted).children = (n.listing sorted).map (clone (some 0) sorted) :=
  children_clone (some 1) sorted n

theorem children_of_mem_clone_one {sorted : Bool} {n c : Node}
    (hc : c ∈ (n.clone (some 1) sorted).children) : c.children = [] := by
  rw [children_clone_one] at hc
  obtain ⟨m, -, rfl⟩ := List.mem_map.mp hc
  exact children_clone_zero sorted m

/-- A copy one level deep is a node with children that have none. -/
theorem subtree_clone_one (sorted : Bool) (n : Node) :
    (n.clone (some 1) sorted).subtree =
      n.clone (some 1) sorted :: (n.listing sorted).map (clone (some 0) sorted) := by
  have hbare (c : Node) : (c.clone (some 0) sorted).subtree = [c.clone (some 0) sorted] := by
    rw [subtree_eq, children_clone_zero, List.flatMap_nil]
  rw [subtree_eq, children_clone_one, List.flatMap_map]
  simp only [hbare]
  exact congrArg _ (List.flatMap_pure_eq_map ..)

/-! ### All levels -/

/-- A copy of everything in its own order is the node itself. -/
theorem clone_whole (n : Node) : n.clone none false = n := by
  induction n using bottom_up with
  | leaf k v => rfl
  | dir k cs ih =>
    rw [clone_dir]
    exact congrArg (dir k) ((List.map_congr_left ih).trans (List.map_id cs))

/-- The smaller of two depths, where none is above every number. -/
def Depth.meet : Depth → Depth → Depth
  | none, e => e
  | some d, none => some d
  | some d, some e => some (min d e)

theorem Depth.reaches_meet (depth depth' : Depth) :
    (depth.meet depth').reaches = (depth.reaches && depth'.reaches) := by
  cases depth with
  | none => rfl
  | some d =>
    cases depth' with
    | none => exact (Bool.and_true _).symm
    | some e => simp [meet, reaches]

theorem Depth.below_meet (depth depth' : Depth) :
    (depth.meet depth').below = depth.below.meet depth'.below := by
  cases depth with
  | none => rfl
  | some d =>
    cases depth' with
    | none => rfl
    | some e =>
      have h : min d e - 1 = min (d - 1) (e - 1) := by omega
      exact congrArg some h

/-- Below zero there are no more levels than at zero. -/
theorem clone_of_nonpos {d : Int} (hd : d ≤ 0) (sorted : Bool) (n : Node) :
    n.clone (some d) sorted = n.clone (some 0) sorted := by
  cases n with
  | leaf k v => rfl
  | dir k cs =>
    have hreaches : Depth.reaches (some d) = false := decide_eq_false (by omega)
    rw [clone_dir, clone_dir, hreaches]
    rfl

/-- A copy of a copy is as deep as the shallower one, and sorted if one of the two is. -/
theorem clone_comp (depth depth' : Depth) (sorted sorted' : Bool) (n : Node) :
    (n.clone depth sorted).clone depth' sorted' =
      n.clone (depth.meet depth') (sorted || sorted') := by
  induction n using bottom_up generalizing depth depth' with
  | leaf k v => rfl
  | dir k cs ih =>
    rw [clone_dir, clone_dir, clone_dir, Depth.reaches_meet]
    cases depth.reaches with
    | false => cases sorted' <;> simp [listing, children, sortByName]
    | true =>
      cases depth'.reaches with
      | false => rfl
      | true =>
        simp only [if_true, Bool.and_self]
        rw [listing_map k (name_clone depth.below sorted), listing_listing, Depth.below_meet]
        refine congrArg (dir k) (List.map_map.trans (List.map_congr_left fun c hc => ?_))
        exact ih c ((listing_perm _ _).subset hc) depth.below depth'.below

/-- A copy of everything, cut at a depth, is the copy to that depth. -/
theorem clone_clone (depth : Depth) (sorted : Bool) (n : Node) :
    (n.clone none sorted).clone depth false = n.clone depth sorted := by
  rw [clone_comp, Bool.or_false]
  rfl

/-- A whole copy holds a copy of each node and nothing else. -/
theorem subtree_clone_perm (sorted : Bool) (n : Node) :
    (n.clone none sorted).subtree.Perm (n.subtree.map (clone none sorted)) := by
  induction n using bottom_up with
  | leaf k v => exact .refl _
  | dir k cs ih =>
    have hlevel : ((dir k cs).clone none sorted).children =
        ((dir k cs).listing sorted).map (clone none sorted) := children_clone none sorted _
    rw [subtree_eq (clone ..), subtree_eq (dir k cs), List.map_cons, hlevel, List.flatMap_map,
      List.map_flatMap]
    refine .cons _ ((listing_perm _ sorted).flatMap fun c hc => ?_)
    exact ih c ((listing_perm _ sorted).subset hc)

/-- A node in a copy is the copy of a node, to the depth that is left there; in the copy with the
siblings in another order that node is found as well. -/
theorem mem_subtree_clone {depth : Depth} {sorted : Bool} {n d : Node}
    (h : d ∈ (n.clone depth sorted).subtree) :
    ∃ m ∈ n.subtree, ∃ left : Depth, d = m.clone left sorted ∧
      ∀ sorted', m.clone left sorted' ∈ (n.clone depth sorted').subtree := by
  induction n using bottom_up generalizing depth with
  | leaf k v =>
    exact ⟨leaf k v, List.mem_singleton_self _, depth, List.mem_singleton.mp h,
      fun sorted' => List.mem_singleton_self _⟩
  | dir k cs ih =>
    rw [subtree_eq] at h
    rcases List.mem_cons.mp h with rfl | h
    · exact ⟨dir k cs, by rw [subtree_eq]; exact List.mem_cons_self, depth, rfl,
        fun sorted' => by rw [subtree_eq]; exact List.mem_cons_self⟩
    obtain ⟨c', hc', hd⟩ := List.mem_flatMap.mp h
    rw [children_clone] at hc'
    split_ifs at hc' with hreaches
    · obtain ⟨c, hc, rfl⟩ := List.mem_map.mp hc'
      have hc := (listing_perm _ sorted).subset hc
      obtain ⟨m, hm, left, hd, hother⟩ := ih c hc hd
      refine ⟨m, ?_, left, hd, fun sorted' => ?_⟩
      · rw [subtree_eq]
        exact List.mem_cons_of_mem _ (List.mem_flatMap.mpr ⟨c, hc, hm⟩)
      · rw [subtree_eq, children_clone, if_pos hreaches]
        have hcopy := List.mem_map_of_mem (f := clone depth.below sorted')
          ((listing_perm (dir k cs) sorted').symm.subset hc)
        exact List.mem_cons_of_mem _ (List.mem_flatMap.mpr ⟨_, hcopy, hother sorted'⟩)
    · cases hc'

/-- In the node and everywhere below it the children of a directory have different names. -/
def Distinct (n : Node) : Prop := ∀ m ∈ n.subtree, (m.children.map name).Nodup

theorem Distinct.clone {n : Node} (h : n.Distinct) (depth : Depth) (sorted : Bool) :
    (n.clone depth sorted).Distinct := by
  intro d hd
  obtain ⟨m, hm, left, rfl, -⟩ := mem_subtree_clone hd
  rw [children_clone]
  split_ifs
  · rw [map_name_clone]
    exact ((listing_perm m sorted).map name).nodup_iff.mpr (h m hm)
  · exact List.nodup_nil

end TreeStore.Node
