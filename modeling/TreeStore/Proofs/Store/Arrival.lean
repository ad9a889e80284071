import Mathlib.Order.Bounds.Defs
import TreeStore.Proofs.Store.Reads

/-!
# Siblings in the order of their arrival

Every listing of a directory gives its children in the order in which their names last went from
absent to present there (`Reachable.sibling_order`).

A name arrives with the request before which nothing is at its path and after which something is;
the number of that request is its stamp.  One request brings at most one name to a directory
(`Request.Brings.name_unique`), the siblings that stay keep their order, and the one that comes
stands behind them (`Graph.KeepsOrder`): so the stamps increase along every list of siblings, and
each call keeps this (`Run.inOrder_serve`).
-/

namespace TreeStore

/-! ### Children in a node that is written as JSON -/

/-- The name of a node that is written as JSON. -/
def Json.nodeName? (v : Json) : Option String :=
  match v.field? "key" with
  | some (.str key) => some (Path.baseName key)
  | _ => none

/-- The names of the children that a node written as JSON shows, in their order. -/
def Json.childNames (v : Json) : List String :=
  match v.field? "nodes" with
  | some (.arr items) => items.filterMap nodeName?
  | _ => []

theorem Node.nodeName?_toJson (n : Node) : n.toJson.nodeName? = some n.name := by
  cases n with
  | leaf k v => rfl
  | dir k cs => cases cs <;> rfl

theorem Node.childNames_toJson (n : Node) : n.toJson.childNames = n.children.map Node.name := by
  have hitems (cs : List Node) :
      (cs.map Node.toJson).filterMap Json.nodeName? = cs.map Node.name := by
    rw [List.filterMap_map, ← List.filterMap_eq_map]
    exact List.filterMap_congr fun c _ => c.nodeName?_toJson
  cases n with
  | leaf k v => rfl
  | dir k cs =>
    cases cs with
    | nil => rfl
    | cons c cs =>
      rw [children, ← hitems, ← toJsonAll_eq_map]
      rfl

namespace Store

open TreeStore.Graph (childOf)
open TreeStore.Path

/-! ### Arrivals -/

/-- Nothing was at the path when `k` requests of the run had been served, and something was there
after one more. -/
def Arrives (start : Store) (served : List Served) (p : List String) (k : Nat) : Prop :=
  k < served.length ∧ ∃ u t, Run start (served.take k) u ∧ Run start (served.take (k + 1)) t ∧
    u.pathMap p = none ∧ t.pathMap p ≠ none

/-- The request with the number `k` was the last one with which something arrived at the path. -/
def LastArrival (start : Store) (served : List Served) (p : List String) (k : Nat) : Prop :=
  IsGreatest {k | Arrives start served p k} k

/-- The names below a path stand in the order in which they arrived there last. -/
def InOrder (start : Store) (served : List Served) (p : List String) (names : List String) : Prop :=
  ∃ stamp : String → Nat, (∀ n ∈ names, LastArrival start served (p ++ [n]) (stamp n)) ∧
    names.Pairwise fun m n => stamp m < stamp n

section Arrivals

variable {start s t : Store} {served : List Served} {d : Served} {p : List String} {k : Nat}

/-- What happened before is not changed by one more request. -/
theorem arrives_concat (hk : k < served.length) :
    Arrives start (served ++ [d]) p k ↔ Arrives start served p k := by
  have hlt : k < (served ++ [d]).length := by
    rw [List.length_append]
    omega
  unfold Arrives
  rw [List.take_append_of_le_length hk.le, List.take_append_of_le_length hk, and_iff_right hlt,
    and_iff_right hk]

section Last

variable (hstart : start.Reachable) (hs : Run start served s) (ht : Run start (served ++ [d]) t)
include hstart hs ht

theorem arrives_last :
    Arrives start (served ++ [d]) p served.length ↔ s.pathMap p = none ∧ t.pathMap p ≠ none := by
  have hlt : served.length < (served ++ [d]).length := by simp
  have htake : (served ++ [d]).take (served.length + 1) = served ++ [d] :=
    List.take_of_length_le (by simp)
  unfold Arrives
  rw [and_iff_right hlt, List.take_left, htake]
  constructor
  · rintro ⟨u, t', hu, ht', hnone, hthere⟩
    rw [hs.pathMap_unique hu hstart, ht.pathMap_unique ht' hstart]
    exact ⟨hnone, hthere⟩
  · rintro ⟨hnone, hthere⟩
    exact ⟨s, t, hs, ht, hnone, hthere⟩

theorem lastArrival_new (hnone : s.pathMap p = none) (hthere : t.pathMap p ≠ none) :
    LastArrival start (served ++ [d]) p served.length := by
  refine ⟨(arrives_last hstart hs ht).mpr ⟨hnone, hthere⟩, fun j hj => ?_⟩
  have hlt := hj.1
  rw [List.length_append, List.length_singleton] at hlt
  omega

/-- Where something was before, nothing has arrived. -/
theorem LastArrival.concat (h : LastArrival start served p k) (hthere : s.pathMap p ≠ none) :
    LastArrival start (served ++ [d]) p k := by
  refine ⟨(arrives_concat h.1.1).mpr h.1, fun j hj => ?_⟩
  have hlt := hj.1
  rw [List.length_append, List.length_singleton] at hlt
  by_cases hold : j < served.length
  · exact h.2 ((arrives_concat hold).mp hj)
  · obtain rfl : j = served.length := by omega
    exact absurd ((arrives_last hstart hs ht).mp hj).1 hthere

end Last

/-! ### One call -/

/-- Whatever a call does, in each directory some siblings stay, in their order, and at most one
comes, behind them. -/
theorem Sound.names_cases (hs : s.Sound) (messages : Messages) (r : Request) (p : List String) :
    ∃ kept, kept.Sublist (s.graph.names p) ∧
      ((serve messages r s).2.graph.names p = kept ∨
        ∃ n, s.pathMap (p ++ [n]) = none ∧ (serve messages r s).2.pathMap (p ++ [n]) ≠ none ∧
          (serve messages r s).2.graph.names p = kept ++ [n]) := by
  have ht := hs.sound_serve messages r
  obtain ⟨kept, new, heq, hkept, hnew⟩ := hs.keepsOrder_serve messages r p
  refine ⟨kept, hkept, ?_⟩
  cases new with
  | nil => exact Or.inl (heq.trans (List.append_nil kept))
  | cons n rest =>
    have hcomes {m : String} (hm : m ∈ n :: rest) : s.pathMap (p ++ [m]) = none ∧
        (serve messages r s).2.pathMap (p ++ [m]) ≠ none := by
      refine ⟨not_not.mp (hs.mem_names.not.mp (hnew m hm)), ?_⟩
      refine ht.mem_names.mp ?_
      rw [heq]
      exact List.mem_append_right kept hm
    have hunique {m : String} (hm : m ∈ rest) : n = m := by
      obtain ⟨hn, hn'⟩ := hcomes List.mem_cons_self
      obtain ⟨hm, hm'⟩ := hcomes (List.mem_cons_of_mem n hm)
      rcases hs.serve_cases messages r with ⟨_, _, -, -, hmap⟩ | ⟨_, hr, -, hmap⟩
      · exact absurd hn (hmap ▸ hn')
      · rw [hmap] at hn' hm'
        exact (Request.brings_of_effect hs.closed hr hn hn').name_unique
          (Request.brings_of_effect hs.closed hr hm hm')
    have hnodup := ht.linked.nodup_names p
    rw [heq, List.nodup_append] at hnodup
    obtain ⟨hn, -⟩ := List.nodup_cons.mp hnodup.2.1
    obtain rfl : rest = [] :=
      List.eq_nil_iff_forall_not_mem.mpr fun m hm => hn (hunique hm ▸ hm)
    obtain ⟨habsent, hthere⟩ := hcomes List.mem_cons_self
    exact Or.inr ⟨n, habsent, hthere, heq⟩

theorem Run.inOrder_serve (h : Run start served s) (hstart : start.Reachable)
    (hin : InOrder start served p (s.graph.names p)) (messages : Messages) (r : Request) :
    InOrder start (served ++ [(serve messages r s).1]) p
      ((serve messages r s).2.graph.names p) := by
  have hs := (h.reachable hstart).sound
  have hrun := h.request messages r
  obtain ⟨stamp, hlast, hpair⟩ := hin
  obtain ⟨kept, hkept, hnames⟩ := hs.names_cases messages r p
  have hstay {m : String} (hm : m ∈ kept) :
      LastArrival start (served ++ [(serve messages r s).1]) (p ++ [m]) (stamp m) := by
    have hm := hkept.subset hm
    exact (hlast m hm).concat hstart h hrun (hs.mem_names.mp hm)
  rcases hnames with heq | ⟨n, habsent, hthere, heq⟩
  · rw [heq]
    exact ⟨stamp, fun m => hstay, hpair.sublist hkept⟩
  · -- the one that comes has a stamp that no other sibling has
    have hne {m : String} (hm : m ∈ kept) : m ≠ n := by
      rintro rfl
      exact hs.mem_names.mp (hkept.subset hm) habsent
    have hold {m : String} (hm : m ∈ kept) :
        Function.update stamp n served.length m = stamp m := Function.update_of_ne (hne hm) ..
    have hlatest : Function.update stamp n served.length n = served.length :=
      Function.update_self ..
    rw [heq]
    refine ⟨Function.update stamp n served.length, fun m hm => ?_, ?_⟩
    · rcases List.mem_append.mp hm with hm | hm
      · rw [hold hm]
        exact hstay hm
      · rw [List.mem_singleton.mp hm, hlatest]
        exact lastArrival_new hstart h hrun habsent hthere
    · rw [List.pairwise_append]
      refine ⟨(hpair.sublist hkept).imp_of_mem fun hl hm hlt => ?_, List.pairwise_singleton .., ?_⟩
      · rwa [hold hl, hold hm]
      · intro m hm m' hm'
        rw [List.mem_singleton.mp hm', hold hm, hlatest]
        exact (hlast m (hkept.subset hm)).1.1

theorem Run.inOrder {config : Config} (h : Run { config := config } served s) (p : List String) :
    InOrder { config := config } served p (s.graph.names p) := by
  have hnew := Reachable.new config
  induction h with
  | start =>
    have hnone : Graph.rooted.names p = [] := Graph.names_rooted p
    exact ⟨fun _ => 0, by simp [hnone], by simp [hnone]⟩
  | request messages r h ih => exact h.inOrder_serve hnew ih messages r
  | lookup key h ih =>
    rw [run, (h.reachable hnew).sound.exists?_ok key]
    exact ih
  | len h ih =>
    rw [run, (h.reachable hnew).sound.size_ok]
    exact ih
  | reset h ih => exact ih

end Arrivals

/-! ### Listings -/

/-- Every unsorted listing of the directory at `p` gives these names in this order: the children of
the node and of its JSON, in a read of the directory itself or of one above it, and the nodes that
stand directly below `p` in a walk through what was read. -/
structure Listed (s : Store) (p : List String) (names : List String) : Prop where
  itself : ∀ key recursive sorted, sorted.getD s.config.sortedListing.truthy = false →
    split (normalize key) = p → ∃ n, s.Reads key recursive sorted n ∧
      n.children.map Node.name = names ∧ n.toJson.childNames = names
  within : ∀ key sorted, sorted.getD s.config.sortedListing.truthy = false →
    split (normalize key) <+: p → ∃ n d, s.Reads key true sorted n ∧ d ∈ n.subtree ∧
      d.key = render p ∧ d.children.map Node.name = names ∧ d.toJson.childNames = names ∧
      ((n.subtree.map Node.key).map split).filterMap (childOf p) = names

section Sound

variable {s : Store} (hs : s.Sound) {p : List String}
include hs

theorem Sound.listed (hp : s.pathMap p ≠ none) : s.Listed p (s.graph.names p) := by
  obtain ⟨d, hd⟩ := Graph.exists_snapshot?_iff.mpr hp
  have hnames := hs.linked.names_of_snapshot? hd
  constructor
  · rintro key recursive sorted hsorted rfl
    have hread := hs.reads hd recursive sorted
    rw [show sorted.getD s.sortsListings = false from hsorted] at hread
    have hchildren : (d.clone (if recursive then none else some 1) false).children.map Node.name =
        s.graph.names (split (normalize key)) := by
      rw [Node.children_clone, if_pos (by cases recursive <;> rfl), Node.map_name_clone, ← hnames]
      rfl
    exact ⟨_, hread, hchildren, (Node.childNames_toJson _).trans hchildren⟩
  · intro key sorted hsorted hpre
    have ha := hs.closed.present_of_prefix hpre hp
    obtain ⟨n, hn⟩ := Graph.exists_snapshot?_iff.mpr ha
    have hread := hs.reads hn true sorted
    rw [show sorted.getD s.sortsListings = false from hsorted, if_pos rfl,
      Node.clone_whole] at hread
    have hbelow := Graph.below_of_snapshot? hn
    have hmem : p ∈ (n.subtree.map Node.key).map split :=
      hbelow ▸ hs.linked.mem_below.mpr ⟨hpre, hp⟩
    obtain ⟨q, hq, hsplit⟩ := List.mem_map.mp hmem
    obtain ⟨e, he, rfl⟩ := List.mem_map.mp hq
    have hsame := hs.snapshot?_of_mem hn he
    rw [hsplit, hd] at hsame
    obtain rfl := Option.some.inj hsame
    refine ⟨n, d, hread, he, hs.linked.key_of_snapshot? hd, hnames,
      (Node.childNames_toJson d).trans hnames, ?_⟩
    rw [hbelow, hs.linked.children_below ha, if_pos hpre]

/-! ### What moves and what stays -/

theorem Sound.names_of_unchanged {messages : Messages} {r : Request}
    (h : ¬ (serve messages r s).1.Succeeds ∨ r.action = .get) (p : List String) :
    (serve messages r s).2.graph.names p = s.graph.names p := by
  have hmap : (serve messages r s).2.pathMap = s.pathMap := by
    rcases hs.serve_cases messages r with ⟨_, _, -, -, hmap⟩ | ⟨result, -, hd, hmap⟩
    · exact hmap
    · rcases h with h | h
      · exact absurd ⟨result, congrArg Served.outcome hd⟩ h
      · cases r with
        | get key recursive sorted => exact hmap
        | _ => cases h
  exact hs.linked.names_eq (hs.sound_serve messages r).linked (hs.keepsOrder_serve messages r)
    fun n => congrFun hmap _

/-- Writing over what is there moves nothing, except that all below it goes. -/
theorem Sound.names_of_overwrite {messages : Messages} {r : Request}
    (ha : r.action = .set ∨ r.action = .update) (hthere : s.pathMap r.path ≠ none)
    (hp : ¬ r.path <+: p) : (serve messages r s).2.graph.names p = s.graph.names p := by
  have horder := hs.keepsOrder_serve messages r
  refine hs.linked.names_kept (hs.sound_serve messages r).linked horder fun n => ?_
  show (serve messages r s).2.pathMap _ ≠ none ↔ s.pathMap _ ≠ none
  rcases hs.serve_cases messages r with ⟨_, _, -, -, hmap⟩ | ⟨result, hr, -, hmap⟩
  · rw [hmap]
  · have hx : ¬ (r.path <+: p ++ [n] ∧ r.path ≠ p ++ [n]) := by
      rintro ⟨hpre, hne⟩
      exact (List.prefix_concat_iff.mp hpre).elim hne hp
    rw [hmap]
    exact Request.present_iff_of_overwrite hs.closed hr ha hthere hx

theorem Sound.names_of_delete {messages : Messages} {r : Request} {n : String}
    (ha : r.action = .delete) (hpath : r.path = p ++ [n]) (hok : (serve messages r s).1.Succeeds) :
    (serve messages r s).2.graph.names p = (s.graph.names p).erase n := by
  have horder := hs.keepsOrder_serve messages r
  refine hs.linked.names_erase (hs.sound_serve messages r).linked horder fun m => ?_
  show (serve messages r s).2.pathMap _ ≠ none ↔ s.pathMap _ ≠ none ∧ _
  rcases hs.serve_cases messages r with ⟨_, _, -, hd, -⟩ | ⟨result, hr, -, hmap⟩
  · obtain ⟨result, hok⟩ := hok
    rw [hd] at hok
    cases hok
  · have herase : r.effect s.pathMap = s.pathMap.erase r.path := by
      cases r with
      | delete key recursive dir => rfl
      | _ => cases ha
    have hpre : p ++ [n] <+: p ++ [m] ↔ n = m := by simp
    rw [hmap, herase, PathMap.erase, hpath]
    by_cases hnm : n = m
    · simp [hnm]
    · simp [hpre, hnm, Ne.symm hnm]

/-- A name that comes stands behind all others, and they stay. -/
theorem Sound.names_of_arrival {messages : Messages} {r : Request} {n : String}
    (habsent : s.pathMap (p ++ [n]) = none)
    (hthere : (serve messages r s).2.pathMap (p ++ [n]) ≠ none) :
    (serve messages r s).2.graph.names p = s.graph.names p ++ [n] := by
  have horder := hs.keepsOrder_serve messages r
  refine hs.linked.names_concat (hs.sound_serve messages r).linked horder habsent fun m => ?_
  show (serve messages r s).2.pathMap _ ≠ none ↔ s.pathMap _ ≠ none ∨ _
  rcases hs.serve_cases messages r with ⟨_, _, -, -, hmap⟩ | ⟨result, hr, -, hmap⟩
  · exact absurd (congrFun hmap _ ▸ habsent) hthere
  rw [hmap] at hthere ⊢
  constructor
  · intro hm
    by_contra hnot
    rw [not_or, not_not] at hnot
    exact hnot.2 ((Request.brings_of_effect hs.closed hr hnot.1 hm).name_unique
      (Request.brings_of_effect hs.closed hr habsent hthere))
  · rintro (hm | rfl)
    · exact Request.kept_of_brought hs.closed hr habsent hthere hm
    · exact hthere

end Sound

/-- In every directory the children stand in the order in which their names last went from absent to
present there, whatever run has led to the store, and all unsorted listings show this order.  Calls
that fail, reads and questions change nothing in it, and writing over a node leaves every name in
its position; a name that comes, also as a directory on the way to a new node, stands behind the
others, and so does one that comes back after it was deleted. -/
theorem Reachable.sibling_order {s : Store} (hs : s.Reachable) :
    (∃ config served, Run { config := config } served s) ∧
    (∀ p, s.pathMap p = some .dir → s.Listed p (s.graph.names p) ∧
      (∀ n, n ∈ s.graph.names p ↔ s.pathMap (p ++ [n]) ≠ none) ∧
      ∀ config served, Run { config := config } served s →
        InOrder { config := config } served p (s.graph.names p)) ∧
    (∀ messages r p, ¬ (serve messages r s).1.Succeeds ∨ r.action = .get →
      (serve messages r s).2.graph.names p = s.graph.names p) ∧
    (∀ key p, (run (exists? key) s).2.graph.names p = s.graph.names p ∧
      (run size s).2.graph.names p = s.graph.names p) ∧
    (∀ messages r p, r.action = .set ∨ r.action = .update → s.pathMap r.path ≠ none →
      ¬ r.path <+: p → (serve messages r s).2.graph.names p = s.graph.names p) ∧
    (∀ messages r p n, s.pathMap (p ++ [n]) = none →
      (serve messages r s).2.pathMap (p ++ [n]) ≠ none →
      (serve messages r s).2.graph.names p = s.graph.names p ++ [n]) ∧
    ∀ messages r p n, r.action = .delete → r.path = p ++ [n] → (serve messages r s).1.Succeeds →
      (serve messages r s).2.graph.names p = (s.graph.names p).erase n ∧
      ∀ messages' r', (serve messages' r' (serve messages r s).2).2.pathMap (p ++ [n]) ≠ none →
        (serve messages' r' (serve messages r s).2).2.graph.names p =
          (s.graph.names p).erase n ++ [n] := by
  have hsound := hs.sound
  refine ⟨hs.exists_run, fun p hp => ⟨hsound.listed (by simp [hp]), fun n => ?_,
    fun config served hrun => hrun.inOrder p⟩, fun messages r p h => hsound.names_of_unchanged h p,
    fun key p => ⟨?_, ?_⟩, fun messages r p => hsound.names_of_overwrite,
    fun messages r p n => hsound.names_of_arrival, fun messages r p n ha hpath hok => ?_⟩
  · exact hsound.mem_names
  · rw [run, hsound.exists?_ok key]
  · rw [run, hsound.size_ok]
  · have ht := hsound.sound_serve messages r
    have hnames := hsound.names_of_delete ha hpath hok
    refine ⟨hnames, fun messages' r' hthere => ?_⟩
    have habsent : (serve messages r s).2.pathMap (p ++ [n]) = none := by
      by_contra h
      have hmem := ht.mem_names.mpr h
      rw [hnames] at hmem
      exact (hsound.linked.nodup_names p).not_mem_erase hmem
    rw [ht.names_of_arrival habsent hthere, hnames]

/-- `x` comes before `y`, is deleted, and comes back on the way to `/a/x/z`. -/
theorem sibling_order_return :
    ∃ s : Store, s.Reachable ∧ s.Listed ["a"] ["y", "x"] ∧
      ∃ served, Run {} served s ∧ served.length = 4 ∧ InOrder {} served ["a"] ["y", "x"] := by
  obtain ⟨s, served, hrun, hlength, ha, hnames⟩ : ∃ s served, Run {} served s ∧
      served.length = 4 ∧ s.pathMap ["a"] = some .dir ∧ s.graph.names ["a"] = ["y", "x"] :=
    ⟨_, _, .request Messages.empty (.set "/a/x/z" false none)
      (.request Messages.empty (.delete "/a/x" false false)
        (.request Messages.empty (.create "/a/y" false none)
          (.request Messages.empty (.create "/a/x" false none) .start))), rfl, rfl, rfl⟩
  have hs := hrun.reachable (.new {})
  obtain ⟨-, horder, -⟩ := hs.sibling_order
  obtain ⟨hlisted, -, hin⟩ := horder ["a"] ha
  rw [hnames] at hlisted hin
  exact ⟨s, hs, hlisted, served, hrun, hlength, hin {} served hrun⟩

end Store

end TreeStore
