import Mathlib.Data.Set.Card
import TreeStore.Proofs.Store.Restore
import TreeStore.Proofs.Store.Tree

/-!
# The size of a store

A walk through the tree comes to every node once, to each directory before what it holds, and goes
through what is below a node in one piece; `size` counts the nodes it comes to below the root.  So
the size is the number of canonical keys other than `/` that exist, and a call changes it by what it
brings or takes away (`Reachable.size_accounting`): the names of its path that led to nothing
(`PathMap.missing`), or the nodes in the state that it answers.

Each kind of change gives a list of the paths after it: those before it and the missing ones
(`Sound.size_grow`), or those that are not below the path (`Sound.size_erase`,
`Sound.size_replace`).
-/

namespace TreeStore

/-- How many names of the path lead to nothing. -/
def PathMap.missing (M : PathMap) (p : List String) : Nat := p.inits.countP fun q => (M q).isNone

theorem nodup_inits (p : List String) : p.inits.Nodup := by
  induction p with
  | nil => exact List.nodup_singleton []
  | cons n p ih =>
    rw [List.inits_cons, List.nodup_cons]
    exact ⟨by simp, ih.map List.cons_injective⟩

namespace Graph

theorem length_below_of_snapshot? {g : Graph} {p : List String} {n : Node}
    (h : g.snapshot? p = some n) : (g.below p).length = n.subtree.length := by
  rw [← below_of_snapshot? h, List.length_map, List.length_map]

/-- Of all paths in the tree, those from one place down are what a walk from there comes to. -/
theorem Linked.length_below {g : Graph} (hg : g.Linked) (p : List String) :
    (g.below []).length =
      (g.below p).length + ((g.below []).filter fun x => !decide (p <+: x)).length := by
  have hperm : ((g.below []).filter fun x => decide (p <+: x)).Perm (g.below p) := by
    refine (List.perm_ext_iff_of_nodup ((hg.nodup_below []).filter _) (hg.nodup_below p)).mpr
      fun x => ?_
    rw [List.mem_filter, hg.mem_below, hg.mem_below, decide_eq_true_eq,
      and_iff_right List.nil_prefix, and_comm]
  rw [← hperm.length_eq]
  exact List.length_eq_length_filter_add _

end Graph

namespace Store

open TreeStore.Graph (rootId)
open TreeStore.Path

section Size

variable {s t : Store} (hs : s.Sound)
include hs

theorem Sound.size_dump : size s = .ok s.dump.length s := by
  obtain ⟨root, -, -, hsubtree⟩ := hs.subtree_root
  rw [hs.size_ok, hsubtree, List.length_cons, Nat.add_sub_cancel]

theorem Sound.length_below_root : (s.graph.below []).length = s.dump.length + 1 := by
  rw [hs.below_root, List.length_cons, List.length_map]

/-- The dump lists what exists below the root. -/
theorem Sound.encard_keys :
    {q | normalize q = q ∧ q ≠ "/" ∧ s.Has q}.encard = s.dump.length := by
  obtain ⟨root, hroot, hkey, hsubtree⟩ := hs.subtree_root
  have hall := hs.lists_subtree hroot
  obtain rfl : s.tree = root := Option.some.inj (s.snapshot?_root.symm.trans hroot)
  replace hsubtree : s.tree.subtree = s.tree :: s.dump := hsubtree
  have hnodup := hall.nodup
  rw [hsubtree, List.map_cons, hkey, List.nodup_cons] at hnodup
  have hset : {q | normalize q = q ∧ q ≠ "/" ∧ s.Has q} = ↑(s.dump.map Node.key).toFinset := by
    ext q
    have hq := hall.mem_iff q
    rw [hsubtree, List.map_cons, hkey, List.mem_cons, and_iff_right List.nil_prefix] at hq
    rw [List.coe_toFinset]
    constructor
    · rintro ⟨hcanonical, hne, hhas⟩
      exact (hq.mpr ⟨hcanonical, hhas⟩).resolve_left hne
    · intro hmem
      obtain ⟨hcanonical, hhas⟩ := hq.mp (Or.inr hmem)
      exact ⟨hcanonical, fun h => hnodup.1 (h ▸ hmem), hhas⟩
  rw [hset, Set.encard_coe_eq_coe_finsetCard, List.toFinset_card_of_nodup hnodup.2,
    List.length_map]

/-! ### What a change does to the size -/

variable (ht : t.Sound) {p : List String} {e : Entry}
include ht

theorem Sound.size_eq (h : ∀ x, t.pathMap x ≠ none ↔ s.pathMap x ≠ none) :
    size t = .ok s.dump.length t := by
  have hsize := ht.size_of_paths (hs.linked.nodup_below []) fun x => by
    rw [hs.linked.mem_below, h, and_iff_right List.nil_prefix]
    rfl
  rw [hsize, hs.length_below_root, Nat.add_sub_cancel]

theorem Sound.size_grow (h : t.pathMap = s.pathMap.grow p e) :
    size t = .ok (s.dump.length + s.pathMap.missing p) t := by
  have hdisjoint : ∀ x ∈ s.graph.below [], x ∉ p.inits.filter fun q => (s.pathMap q).isNone := by
    intro x hx hnew
    exact (hs.linked.mem_below.mp hx).2 (Option.isNone_iff_eq_none.mp (List.mem_filter.mp hnew).2)
  have hnodup := (hs.linked.nodup_below []).append ((nodup_inits p).filter _) hdisjoint
  have hsize := ht.size_of_paths hnodup fun x => by
    rw [List.mem_append, hs.linked.mem_below, and_iff_right List.nil_prefix, List.mem_filter,
      List.mem_inits, Option.isNone_iff_eq_none, h, PathMap.grow_ne_none_iff]
    show s.pathMap x ≠ none ∨ _ ↔ _
    tauto
  rw [hsize, List.length_append, hs.length_below_root, ← List.countP_eq_length_filter,
    Nat.add_right_comm, Nat.add_sub_cancel]
  rfl

theorem Sound.size_erase (hp : p ≠ []) (h : t.pathMap = s.pathMap.erase p) :
    ∃ m, size t = .ok m t ∧ m + (s.graph.below p).length = s.dump.length := by
  have hsize := ht.size_of_paths ((hs.linked.nodup_below []).filter fun x => !decide (p <+: x))
    fun x => by
      rw [List.mem_filter, hs.linked.mem_below, and_iff_right List.nil_prefix, h, PathMap.erase]
      by_cases hx : p <+: x
      · simp [hx]
      · simp [hx, pathMap]
  have hroot : [] ∈ (s.graph.below []).filter fun x => !decide (p <+: x) := by
    rw [List.mem_filter, hs.linked.mem_below, hs.linked.closed_pathMap.root]
    simp [hp]
  have hpos := List.length_pos_of_mem hroot
  have hparts := hs.linked.length_below p
  rw [hs.length_below_root] at hparts
  exact ⟨_, hsize, by omega⟩

theorem Sound.size_replace (h : t.pathMap = s.pathMap.replace p e) :
    ∃ m, size t = .ok m t ∧ m + (s.graph.below p).length = s.dump.length + 1 := by
  have hnodup : (p :: (s.graph.below []).filter fun x => !decide (p <+: x)).Nodup := by
    refine List.nodup_cons.mpr ⟨fun hmem => ?_, (hs.linked.nodup_below []).filter _⟩
    simpa using (List.mem_filter.mp hmem).2
  have hsize := ht.size_of_paths hnodup fun x => by
    rw [List.mem_cons, List.mem_filter, hs.linked.mem_below, and_iff_right List.nil_prefix, h,
      PathMap.replace]
    by_cases hself : x = p
    · simp [hself]
    by_cases hx : p <+: x
    · simp [hself, hx]
    · simp [hself, hx, pathMap]
  have hparts := hs.linked.length_below p
  rw [hs.length_below_root] at hparts
  refine ⟨_, hsize, ?_⟩
  rw [List.length_cons, Nat.add_sub_cancel]
  omega

end Size

/-! ### What an operation does to the size -/

/-- The size `n` before a success and the size `m` after it: a new path brings the names of it that
led to nothing, a `set` over a node takes away what is below the state before, a `delete` all that
is in the state that it answers, and nothing else counts. -/
def Resizes (s : Store) (r : Request) (result : Result) (n m : Nat) : Prop :=
  match r with
  | .get .. | .update .. => m = n
  | .create .. => m = n + s.pathMap.missing r.path
  | .set .. =>
    (¬ s.Has r.key → m = n + s.pathMap.missing r.path) ∧
    (s.Has r.key → ∃ prev, result.prev = some prev ∧ m + prev.subtree.tail.length = n)
  | .delete .. => m + result.node.subtree.length = n

section Operations

variable {s t : Store} (hs : s.Sound) {messages : Messages} {r : Request} {result : Result}
include hs

theorem Sound.resizes (h : perform messages r s = .ok result t) :
    ∃ m, size t = .ok m t ∧ s.Resizes r result s.dump.length m := by
  obtain ⟨hr, ht, hmap, hq, -, -⟩ := hs.of_ok h
  have hhas : s.Has r.key ↔ s.pathMap r.path ≠ none := hs.has_iff
  have hsame (hkept : ∀ x, t.pathMap x ≠ none ↔ s.pathMap x ≠ none) :
      ∃ m, size t = .ok m t ∧ m = s.dump.length := ⟨_, hs.size_eq ht hkept, rfl⟩
  cases r with
  | get key recursive sorted => exact hsame fun x => by rw [hmap, Request.effect]
  | update key value =>
    have hthere := Request.present_of_success hs.closed hr (by simp [Request.action])
      (by simp [Request.action])
    refine hsame fun x => ?_
    rw [hmap, Request.effect, PathMap.write]
    split_ifs with hx
    · simp [hx, hthere]
    · rfl
  | create key isDir value => exact ⟨_, hs.size_grow ht hmap, rfl⟩
  | set key isDir value =>
    rw [Request.effect] at hmap
    by_cases hnone : s.pathMap (Request.set key isDir value).path = none
    · rw [if_pos hnone] at hmap
      exact ⟨_, hs.size_grow ht hmap, fun _ => rfl, fun h => absurd hnone (hhas.mp h)⟩
    · rw [if_neg hnone] at hmap
      obtain ⟨m, hm, hsum⟩ := hs.size_replace ht hmap
      obtain ⟨prev, hprev⟩ := Graph.exists_snapshot?_iff.mpr hnone
      have hbefore := (hq.prev_before (Or.inl rfl)).trans hprev
      refine ⟨m, hm, fun h => absurd (hhas.mpr hnone) h, fun _ => ⟨prev, hbefore, ?_⟩⟩
      rw [Graph.length_below_of_snapshot? hprev] at hsum
      rw [List.length_tail]
      have hpos : 0 < prev.subtree.length := by
        rw [Node.subtree_eq]
        exact Nat.succ_pos _
      omega
  | delete key recursive dir =>
    have hne : (Request.delete key recursive dir).path ≠ [] := by
      intro hroot
      rw [Request.refusal, if_pos hroot] at hr
      cases hr
    obtain ⟨m, hm, hsum⟩ := hs.size_erase ht hne hmap
    rw [Graph.length_below_of_snapshot? (hq.node_before rfl)] at hsum
    exact ⟨m, hm, hsum⟩

theorem Sound.size_of_failure {f : Fault} (h : perform messages r s = .error f t) :
    size t = .ok s.dump.length t := by
  rcases hs.perform_cases messages r with ⟨code, cause, -, hp⟩ | ⟨result, g, -, hp, -⟩
  · rw [hp] at h
    obtain ⟨-, rfl⟩ := EStateM.Result.error.inj h
    have ht : (s.count r.action false).Sound := ⟨hs.linked, hs.free⟩
    exact hs.size_eq ht fun x => Iff.rfl
  · rw [hp] at h
    cases h

end Operations

/-- A walk through the tree comes to every node that exists, to each of them once, to no node after
one that is below it, and it goes through all that is below a node in one piece.  The size is the
number of canonical keys other than `/` that exist; each operation changes it as `Resizes` says, and
one that fails, or only asks whether a key exists, leaves it. -/
theorem Reachable.size_accounting {s : Store} (hs : s.Reachable) :
    (s.Lists s.tree.subtree (fun q => normalize q = q ∧ s.Has q) ∧
      (s.tree.subtree.map Node.key).Pairwise (fun k l => ¬ split l <+: split k) ∧
      ∀ d ∈ s.tree.subtree, d.subtree <:+: s.tree.subtree ∧
        s.Lists d.subtree fun q => normalize q = q ∧ split d.key <+: split q ∧ s.Has q) ∧
    ∃ n, size s = .ok n s ∧ {q | normalize q = q ∧ q ≠ "/" ∧ s.Has q}.encard = n ∧
      (∀ messages r result t, perform messages r s = .ok result t →
        ∃ m, size t = .ok m t ∧ s.Resizes r result n m) ∧
      (∀ messages r f t, perform messages r s = .error f t → size t = .ok n t) ∧
      ∀ key, ∃ b t, exists? key s = .ok b t ∧ size t = .ok n t := by
  have hsound := hs.sound
  have hroot := s.snapshot?_root
  refine ⟨⟨?_, ?_, fun d hd => ⟨Node.subtree_infix hd, ?_⟩⟩, _, hsound.size_dump,
    hsound.encard_keys, fun _ _ _ _ => hsound.resizes, fun _ _ _ _ => hsound.size_of_failure,
    fun key => ⟨_, _, hsound.exists?_ok key, hsound.size_dump⟩⟩
  · simpa using hsound.lists_subtree hroot
  · have hpair := hsound.linked.pairwise_below []
    rw [← Graph.below_of_snapshot? hroot, List.pairwise_map] at hpair
    exact hpair
  · exact hsound.lists_subtree (hsound.snapshot?_of_mem hroot hd)

/-- A directory with two nodes below it is replaced by a leaf. -/
theorem size_accounting_replaced :
    ∃ s : Store, s.Reachable ∧ {q | normalize q = q ∧ q ≠ "/" ∧ s.Has q}.encard = 4 ∧
      ∃ result t, perform Messages.empty (.set "a" false none) s = .ok result t ∧
        size t = .ok 2 t ∧ ∃ prev, result.prev = some prev ∧ prev.subtree.tail.length = 2 := by
  obtain ⟨s, hs, hsize, hdir, result, t, h, hsize'⟩ : ∃ s : Store, s.Reachable ∧
      s.dump.length = 4 ∧ s.pathMap ["a"] = some .dir ∧ ∃ result t,
        perform Messages.empty (.set "a" false none) s = .ok result t ∧ t.dump.length = 2 := by
    refine ⟨_, .request Messages.empty (.create "/b" false none)
      (.request Messages.empty (.create "/a/b/c" true none) (.new {})), ?_, rfl, _, _, rfl, ?_⟩
    · decide +kernel
    · decide +kernel
  obtain ⟨-, n, hn, hcard, hok, -⟩ := hs.size_accounting
  obtain ⟨m, hm, -, hover⟩ := hok _ _ _ _ h
  have ht := (hs.sound.of_ok h).2.1
  obtain rfl : n = 4 := (EStateM.Result.ok.inj (hn.symm.trans (hsize ▸ hs.sound.size_dump))).1
  obtain rfl : m = 2 := (EStateM.Result.ok.inj (hm.symm.trans (hsize' ▸ ht.size_dump))).1
  have hat : split (normalize "a") = ["a"] := by decide +kernel
  have hthere : s.Has "a" := hs.sound.has_iff.mpr (by simp [hat, hdir])
  obtain ⟨prev, hprev, hsum⟩ := hover hthere
  exact ⟨s, hs, hcard, result, t, h, hm, prev, hprev, by omega⟩

end Store

end TreeStore
