import Mathlib.Data.List.Infix
import TreeStore.Proofs.Graph.Linked
import TreeStore.Resolution

/-!
# Paths in a linked graph

A node of the tree is the one at the end of a path from the root, and its key is that path in
canonical form: so a node has one path only (`Linked.at?_inj`), and resolving its key leads back to
it.  `walk_cases` says how a walk along a path can end; the walk is decided by what `at?` finds.

The last section says which node every path leads to after a child was added or removed.
-/

namespace TreeStore.Graph

/-! ### Concatenation -/

@[simp] theorem at?_nil (g : Graph) (i : Nat) : g.at? i [] = some i := rfl

theorem at?_cons (g : Graph) (i : Nat) (n : String) (p : List String) :
    g.at? i (n :: p) = (g.child? i n).bind (g.at? · p) := rfl

theorem at?_append (g : Graph) (i : Nat) (p q : List String) :
    g.at? i (p ++ q) = (g.at? i p).bind (g.at? · q) := by
  induction p generalizing i with
  | nil => rfl
  | cons n p ih =>
    rw [List.cons_append, at?_cons, at?_cons, Option.bind_assoc]
    exact Option.bind_congr fun j _ => ih j

theorem at?_concat (g : Graph) (i : Nat) (p : List String) (n : String) :
    g.at? i (p ++ [n]) = (g.at? i p).bind (g.child? · n) := by
  rw [at?_append]
  refine Option.bind_congr fun j _ => ?_
  rw [at?_cons]
  simp

theorem at?_concat_eq_some_iff {g : Graph} {i c : Nat} {p : List String} {n : String} :
    g.at? i (p ++ [n]) = some c ↔ ∃ d, g.at? i p = some d ∧ g.child? d n = some c := by
  rw [at?_concat, Option.bind_eq_some_iff]

theorem at?_congr {g g' : Graph} (h : ∀ d n, g'.child? d n = g.child? d n) (i : Nat)
    (p : List String) : g'.at? i p = g.at? i p := by
  induction p generalizing i with
  | nil => rfl
  | cons n p ih =>
    rw [at?_cons, at?_cons, h]
    exact Option.bind_congr fun j _ => ih j

theorem exists_at?_of_prefix {g : Graph} {i c : Nat} {p q : List String} (hpq : p <+: q)
    (h : g.at? i q = some c) : ∃ d, g.at? i p = some d := by
  obtain ⟨t, rfl⟩ := hpq
  rw [at?_append, Option.bind_eq_some_iff] at h
  exact h.imp fun _ hd => hd.1

/-! ### Only directories have children -/

theorem isDir_of_child? {g : Graph} {d c : Nat} {n : String} (h : g.child? d n = some c) :
    (g.vertex d).isDir = true := by
  obtain ⟨v, hv, hc⟩ := Option.bind_eq_some_iff.mp h
  rw [vertex_of_get? hv]
  by_contra hleaf
  rw [if_neg hleaf] at hc
  cases hc

theorem child?_of_leaf {g : Graph} {d : Nat} {n : String} (h : (g.vertex d).isDir = false) :
    g.child? d n = none := by
  by_contra hne
  obtain ⟨c, hc⟩ := Option.ne_none_iff_exists'.mp hne
  rw [isDir_of_child? hc] at h
  cases h

/-! ### Keys and paths -/

/-- A tree hangs below `root`, which is the directory `/`: each child is held under a segment, its
key continues the key of its directory, and its link leads back to that directory. -/
structure IsTree (g : Graph) (root : Nat) : Prop where
  atRoot : ∃ v, g.get? root = some v ∧ v.key = "/" ∧ v.isDir = true ∧ v.parent = none
  child : ∀ p d n c, g.at? root p = some d → g.child? d n = some c →
    Path.IsSegment n ∧
      ∃ w, g.get? c = some w ∧ w.key = Path.join (g.vertex d).key n ∧ w.parent = some d

section Tree

variable {g : Graph} {root : Nat} (hg : g.IsTree root)
include hg

theorem IsTree.of_at? {p : List String} {i : Nat} (h : g.at? root p = some i) :
    ∃ v, g.get? i = some v ∧ v.key = Path.render p ∧ Path.IsPath p := by
  induction p using List.reverseRecOn generalizing i with
  | nil =>
    obtain ⟨v, hv, hk, -, -⟩ := hg.atRoot
    rw [at?_nil, Option.some.injEq] at h
    exact ⟨v, h ▸ hv, hk, Path.isPath_nil⟩
  | append_singleton p n ih =>
    obtain ⟨d, hd, hc⟩ := at?_concat_eq_some_iff.mp h
    obtain ⟨hn, w, hw, hk, -⟩ := hg.child p d n i hd hc
    obtain ⟨v, hv, hkey, hp⟩ := ih hd
    rw [vertex_of_get? hv, hkey, Path.join_render hp] at hk
    exact ⟨w, hw, hk, Path.isPath_append.mpr ⟨hp, Path.isPath_singleton.mpr hn⟩⟩

theorem IsTree.key_of_at? {p : List String} {i : Nat} (h : g.at? root p = some i) :
    (g.vertex i).key = Path.render p := by
  obtain ⟨v, hv, hk, -⟩ := hg.of_at? h
  rw [vertex_of_get? hv, hk]

/-- A node below the root is linked to the directory one name up. -/
theorem IsTree.parent_concat {p : List String} {n : String} {c : Nat}
    (h : g.at? root (p ++ [n]) = some c) :
    ∃ d, g.at? root p = some d ∧ (g.vertex d).isDir = true ∧ (g.vertex c).parent = some d := by
  obtain ⟨d, hd, hc⟩ := at?_concat_eq_some_iff.mp h
  obtain ⟨-, w, hw, -, hparent⟩ := hg.child p d n c hd hc
  exact ⟨d, hd, isDir_of_child? hc, by rw [vertex_of_get? hw, hparent]⟩

/-- The link of a node leads to the node one name up; the root has none. -/
theorem IsTree.parent_of_at? {p : List String} {i : Nat} (h : g.at? root p = some i) :
    (g.vertex i).parent = if p = [] then none else g.at? root p.dropLast := by
  rcases List.eq_nil_or_concat' p with rfl | ⟨q, n, rfl⟩
  · obtain ⟨v, hv, -, -, hparent⟩ := hg.atRoot
    rw [at?_nil, Option.some.injEq] at h
    rw [← h, vertex_of_get? hv, hparent, if_pos rfl]
  · obtain ⟨d, hd, -, hparent⟩ := hg.parent_concat h
    rw [hparent, if_neg (by simp), List.dropLast_concat, hd]

end Tree

section Linked

variable {g : Graph} (hg : Linked g)
include hg

theorem Linked.isTree : g.IsTree rootId where
  atRoot := hg.root
  child := by
    intro p d n c _ hc
    obtain ⟨v, w, hv, hw, -, hn, hk, hparent⟩ := hg.of_child? hc
    exact ⟨hn, w, hw, by rw [hk, vertex_of_get? hv], hparent⟩

theorem Linked.of_at? {p : List String} {i : Nat} (h : g.at? rootId p = some i) :
    ∃ v, g.get? i = some v ∧ v.key = Path.render p ∧ Path.IsPath p := hg.isTree.of_at? h

theorem Linked.get?_of_at? {p : List String} {i : Nat} (h : g.at? rootId p = some i) :
    g.get? i = some (g.vertex i) := by
  obtain ⟨v, hv, -, -⟩ := hg.of_at? h
  rw [hv, vertex_of_get? hv]

theorem Linked.key_of_at? {p : List String} {i : Nat} (h : g.at? rootId p = some i) :
    (g.vertex i).key = Path.render p := by
  obtain ⟨v, hv, hk, -⟩ := hg.of_at? h
  rw [vertex_of_get? hv, hk]

theorem Linked.isPath_of_at? {p : List String} {i : Nat} (h : g.at? rootId p = some i) :
    Path.IsPath p := by
  obtain ⟨-, -, -, hp⟩ := hg.of_at? h
  exact hp

/-- Different paths lead to different nodes, since the node's key tells its path. -/
theorem Linked.at?_inj {p q : List String} {i : Nat} (hp : g.at? rootId p = some i)
    (hq : g.at? rootId q = some i) : p = q :=
  Path.render_injective (hg.isPath_of_at? hp) (hg.isPath_of_at? hq)
    ((hg.key_of_at? hp).symm.trans (hg.key_of_at? hq))

end Linked

/-! ### How a walk ends -/

/-- A walk finds the node of the path, or stops at a directory that lacks the next name, or stops
at a leaf that is not the last node of the path. -/
theorem walk_cases (g : Graph) (via : Option String) (i : Nat) (ss : List String) :
    (∃ j, g.at? i ss = some j ∧ g.walk via i ss = .found j (g.vertex j).parent) ∨
    (∃ p n rest d, ss = p ++ n :: rest ∧ g.at? i p = some d ∧ (g.vertex d).isDir = true ∧
      g.child? d n = none ∧ g.walk via i ss = .missing d (n :: rest)) ∨
    (∃ p n rest l names, ss = p ++ n :: rest ∧ g.at? i p = some l ∧ (g.vertex l).isDir = false ∧
      g.walk via i ss = .blocked l (g.vertex l).parent names) := by
  induction ss generalizing via i with
  | nil => exact Or.inl ⟨i, rfl, rfl⟩
  | cons s ss ih =>
    cases hdir : (g.vertex i).isDir with
    | false =>
      obtain ⟨names, hw⟩ := @walk_leaf g via i hdir s ss
      exact Or.inr (Or.inr ⟨[], s, ss, i, names, rfl, rfl, hdir, hw⟩)
    | true =>
      cases hc : g.child? i s with
      | none => exact Or.inr (Or.inl ⟨[], s, ss, i, rfl, rfl, hdir, hc, walk_absent hdir hc ss⟩)
      | some c =>
        -- the walk goes on below the child, with the child's name in front of its path
        rw [walk_child hdir hc]
        rcases ih (some s) c with ⟨j, hj, hw⟩ | ⟨p, n, rest, d, rfl, hd, hdd, hcd, hw⟩ |
          ⟨p, n, rest, l, names, rfl, hl, hll, hw⟩
        · exact Or.inl ⟨j, by rw [at?_cons, hc, Option.bind_some, hj], hw⟩
        · refine Or.inr (Or.inl ⟨s :: p, n, rest, d, rfl, ?_, hdd, hcd, hw⟩)
          rw [at?_cons, hc, Option.bind_some, hd]
        · refine Or.inr (Or.inr ⟨s :: p, n, rest, l, names, rfl, ?_, hll, hw⟩)
          rw [at?_cons, hc, Option.bind_some, hl]

/-- The walk along a path that exists goes on from its end. -/
theorem walk_append {g : Graph} {i c : Nat} {q : List String} (h : g.at? i q = some c)
    (via : Option String) (rest : List String) :
    g.walk via i (q ++ rest) = g.walk (q.getLast?.or via) c rest := by
  induction q generalizing i via with
  | nil =>
    rw [at?_nil, Option.some.injEq] at h
    subst h
    rfl
  | cons s q ih =>
    rw [at?_cons, Option.bind_eq_some_iff] at h
    obtain ⟨d, hd, hc⟩ := h
    have hlast : (s :: q).getLast?.or via = q.getLast?.or (some s) := by
      rw [List.getLast?_cons]
      cases q.getLast? <;> rfl
    rw [List.cons_append, walk_child (isDir_of_child? hd) hd, ih hc, hlast]

theorem resolve_of_at? {g : Graph} (hg : Linked g) {p : List String} {i : Nat}
    (h : g.at? rootId p = some i) :
    g.resolve rootId (g.vertex i).key = .found i (g.vertex i).parent := by
  have hp := hg.isPath_of_at? h
  have hwalk := walk_append h none []
  rw [List.append_nil] at hwalk
  rw [hg.key_of_at? h, resolve, Path.normalize_render hp, Path.split_render hp, hwalk, walk_nil]

/-! ### Paths after a child came or went -/

section Changes

variable {g g' : Graph} {d c : Nat} {v w : Vertex} {n : String} {p : List String}

theorem prefix_concat_iff_of_not {q : List String} {m : String} (h : ¬ p ++ [n] <+: q) :
    p ++ [n] <+: q ++ [m] ↔ q ++ [m] = p ++ [n] := by
  rw [List.prefix_concat_iff, eq_comm]
  exact or_iff_left h

/-- Below the other directories everything is as before. -/
theorem Linked.bind_child?_of_ne (hg : Linked g) {x : Option Nat}
    (h : ∀ e m, g'.child? e m = if e = d ∧ m = n then x else g.child? e m)
    (hp : g.at? rootId p = some d) {q : List String} (hq : q ≠ p) (m : String) :
    (g.at? rootId q).bind (g'.child? · m) = g.at? rootId (q ++ [m]) := by
  rw [at?_concat]
  refine Option.bind_congr fun e he => ?_
  rw [h, if_neg]
  rintro ⟨rfl, -⟩
  exact hq (hg.at?_inj he hp)

theorem Linked.at?_attached (hg : Linked g) (h : Attachable g d c v w n)
    (ha : Attached g g' d c v w) (hw : w.children = []) (hp : g.at? rootId p = some d)
    (q : List String) :
    g'.at? rootId q =
      if q = p ++ [n] then some c else if p ++ [n] <+: q then none else g.at? rootId q := by
  have hchild := hg.child?_attached h ha
  induction q using List.reverseRecOn with
  | nil => simp
  | append_singleton q m ih =>
    rw [at?_concat, ih]
    by_cases hq : q = p ++ [n]
    · -- below the new child there is nothing
      have hcm : g'.child? c m = none := by
        rw [hchild, if_neg fun hh => h.ne hh.1, hg.child?_eq_lookup h.node, hw]
        rfl
      rw [if_pos hq, if_neg (by simp [hq]), if_pos (by rw [hq]; exact List.prefix_append _ _)]
      exact hcm
    · rw [if_neg hq]
      by_cases hpre : p ++ [n] <+: q
      · have hne : q ++ [m] ≠ p ++ [n] := by
          intro hh
          have hle := hpre.length_le
          have heq := congrArg List.length hh
          simp only [List.length_append, List.length_singleton] at hle heq
          omega
        rw [if_pos hpre, if_neg hne, if_pos (hpre.trans (List.prefix_append _ _))]
        rfl
      · rw [if_neg hpre]
        have hpre' := @prefix_concat_iff_of_not _ _ _ m hpre
        by_cases hqp : q = p
        · subst hqp
          rw [hp, Option.bind_some, hchild, at?_concat, hp, Option.bind_some]
          by_cases hmn : m = n
          · simp [hmn]
          · rw [if_neg fun hh => hmn hh.2, if_neg (by simpa using hmn), if_neg (by
              rw [hpre']; simpa using hmn)]
        · have hne : q ++ [m] ≠ p ++ [n] := fun hh => hqp (List.append_inj_left' hh rfl)
          rw [if_neg hne, if_neg (by rw [hpre']; exact hne), hg.bind_child?_of_ne hchild hp hqp]

theorem Linked.at?_detached (hg : Linked g) (hd : g.get? d = some v)
    (hc : g.child? d n = some c) (h : Detached g g' d c v n) (hp : g.at? rootId p = some d)
    (q : List String) :
    g'.at? rootId q = if p ++ [n] <+: q then none else g.at? rootId q := by
  have hchild := hg.child?_detached hd hc h
  induction q using List.reverseRecOn with
  | nil => simp
  | append_singleton q m ih =>
    rw [at?_concat, ih]
    by_cases hpre : p ++ [n] <+: q
    · rw [if_pos hpre, if_pos (hpre.trans (List.prefix_append _ _))]
      rfl
    · rw [if_neg hpre]
      have hpre' := @prefix_concat_iff_of_not _ _ _ m hpre
      by_cases hqp : q = p
      · subst hqp
        rw [hp, Option.bind_some, hchild, at?_concat, hp, Option.bind_some]
        by_cases hmn : m = n
        · simp [hmn]
        · rw [if_neg fun hh => hmn hh.2, if_neg (by rw [hpre']; simpa using hmn)]
      · have hne : q ++ [m] ≠ p ++ [n] := fun hh => hqp (List.append_inj_left' hh rfl)
        rw [if_neg (by rw [hpre']; exact hne), hg.bind_child?_of_ne hchild hp hqp]

end Changes

end TreeStore.Graph
