import TreeStore.Proofs.Store.Bodies

/-!
# Every reachable store

`Reachable` is every state that a new store comes into by requests, questions and resets of its
counters, successful or not, with any messages at each of them.  In all of them the graph is linked
and nobody holds the lock, so a whole operation does what its body does and counts it:
`Sound.perform_cases`.

* `Reachable.pathMap_changes`: what each call that succeeds does to the path map;
* `Reachable.tree_links`: keys, names, links and kinds in the tree;
* `Reachable.perform_outcome`: which calls fail, with which code, cause and message.
-/

namespace TreeStore

namespace Store

open TreeStore.Graph (rootId)

/-- The graph is linked, and nobody holds the lock. -/
structure Sound (s : Store) : Prop where
  linked : s.graph.Linked
  free : s.lock = Lock.free

theorem Sound.closed {s : Store} (hs : s.Sound) : s.pathMap.Closed := hs.linked.closed_pathMap

theorem Sound.mem_names {s : Store} (hs : s.Sound) {p : List String} {n : String} :
    n ∈ s.graph.names p ↔ s.pathMap (p ++ [n]) ≠ none := hs.linked.mem_names_iff

/-- The store while a side of its lock is held. -/
def held (s : Store) (side : Lock.Side) : Store := { s with lock := Lock.free.grant side }

theorem Sound.linked_held {s : Store} (hs : s.Sound) (side : Lock.Side) :
    (s.held side).graph.Linked := hs.linked

/-! ### Whole operations -/

section Operations

variable {messages : Messages} {s : Store} (hs : s.Sound)
include hs

theorem locked_ok {α : Type} {side : Lock.Side} {body : Call α} {a : α} {g : Graph}
    (h : body (s.held side) = .ok a { s.held side with graph := g }) :
    locked side body s = .ok a { s with graph := g } := by
  rw [held] at h
  rw [locked, hs.free, Lock.tryAcquire?_free]
  simp only [h, Lock.release?_grant_free]

theorem locked_error {α : Type} {side : Lock.Side} {body : Call α} {f : Fault}
    (h : body (s.held side) = .error f (s.held side)) : locked side body s = .error f s := by
  rw [held] at h
  rw [locked, hs.free, Lock.tryAcquire?_free]
  simp only [h, Lock.release?_grant_free]
  rw [← hs.free]

theorem locked_meets {α : Type} {r : Request} {side : Lock.Side} {body : Call α}
    {Q : α → Graph → Prop} (h : Meets messages r body Q (s.held side)) :
    Meets messages r (locked side body) Q s := by
  cases h with
  | refused h hb => exact .refused h (locked_error hs hb)
  | done h hb hg he ho hq => exact .done h (locked_ok hs hb) hg he ho hq

theorem operation_meets (r : Request) :
    Meets messages r (operation messages r) (s.Answered r) s := by
  have hw := hs.linked_held .write
  cases r with
  | get key recursive sorted =>
    have hop : operation messages (.get key recursive sorted) s = (do
        let node ← locked .read (readNode messages key recursive (sorted.getD s.sortsListings))
        ofExcept (Result.make .get node) : Call Result) s := rfl
    have h := locked_meets hs (@readNode_meets messages _ (hs.linked_held .read) key recursive
      (sorted.getD s.sortsListings) sorted)
    cases h with
    | refused h hb => exact .refused h (hop.trans (bind_error hb _))
    | done h hb hg he ho hq =>
      have hbody := hop.trans (bind_ok hb _)
      exact .done h hbody hg he ho ⟨rfl, hq, rfl⟩
  | create key isDir value =>
    rw [operation]
    exact locked_meets hs (createNode_meets hw key isDir value)
  | set key isDir value =>
    rw [operation]
    exact locked_meets hs (setNode_meets hw key isDir value)
  | update key value =>
    rw [operation]
    exact locked_meets hs (updateNode_meets hw key value)
  | delete key recursive dir =>
    rw [operation]
    exact locked_meets hs (deleteNode_meets hw key recursive dir)

/-- A whole operation is refused with no change but its count, or it does what is promised. -/
theorem Sound.perform_cases (messages : Messages) (r : Request) :
    (∃ code cause, r.refusal s.pathMap = some (code, cause) ∧
      perform messages r s =
        .error (.refused (messages.error code cause)) (s.count r.action false)) ∨
    (∃ result g, r.refusal s.pathMap = none ∧
      perform messages r s = .ok result (count { s with graph := g } r.action true) ∧
      g.Linked ∧ g.pathMap = r.effect s.pathMap ∧ s.Answered r result g ∧
      s.graph.KeepsOrder g) := by
  cases @operation_meets messages s hs r with
  | refused h hb => exact Or.inl ⟨_, _, h, by rw [perform, hb]⟩
  | done h hb hg he ho hq => exact Or.inr ⟨_, _, h, by rw [perform, hb], hg, he, hq, ho⟩

theorem Sound.perform_refused_iff (messages : Messages) (r : Request) (e : StoreError) :
    (∃ s', perform messages r s = .error (.refused e) s') ↔
      ∃ code cause, r.refusal s.pathMap = some (code, cause) ∧
        e = ⟨code, messages.get code, cause⟩ := by
  rcases hs.perform_cases messages r with ⟨code, cause, hr, hp⟩ | ⟨result, g, hr, hp, -⟩
  · rw [hp, hr]
    constructor
    · rintro ⟨s', h⟩
      cases h
      exact ⟨code, cause, rfl, rfl⟩
    · rintro ⟨code', cause', h, rfl⟩
      cases h
      exact ⟨_, rfl⟩
  · rw [hp, hr]
    constructor
    · rintro ⟨s', h⟩
      cases h
    · rintro ⟨code, cause, h, -⟩
      cases h

theorem Sound.perform_ok_iff (messages : Messages) (r : Request) :
    (∃ result s', perform messages r s = .ok result s') ↔ r.refusal s.pathMap = none := by
  rcases hs.perform_cases messages r with ⟨code, cause, hr, hp⟩ | ⟨result, g, hr, hp, -⟩
  · rw [hp, hr]
    constructor
    · rintro ⟨result, s', h⟩
      cases h
    · intro h
      cases h
  · rw [hp, hr]
    exact ⟨fun _ => rfl, fun _ => ⟨_, _, rfl⟩⟩

theorem Sound.exists?_ok (key : String) :
    exists? key s = .ok (s.pathMap (Path.split (Path.normalize key))).isSome s := by
  have hfind : (s.graph.find? rootId key).isSome =
      (s.pathMap (Path.split (Path.normalize key))).isSome := by
    rw [Graph.find?, pathMap]
    rcases hs.linked.resolve_cases key rfl with ⟨i, hi, hr, -⟩ |
      ⟨_, _, _, _, -, -, -, -, hr, hM, -⟩ | ⟨_, _, _, -, hr, hM, -⟩
    · rw [hr, Graph.pathMap_of_at? hi]
      rfl
    · rw [hr, hM]
      rfl
    · rw [hr, hM]
      rfl
  have hbody : (do return ((← get).graph.find? rootId key).isSome : Call Bool) (s.held .read) =
      .ok (s.graph.find? rootId key).isSome { s.held .read with graph := s.graph } := rfl
  rw [exists?, ← hfind, locked_ok hs hbody]

theorem Sound.size_ok :
    size s = .ok ((s.graph.view rootId).subtree.length - 1) s := by
  have hbody : (do return ((← get).graph.view rootId).subtree.length - 1 : Call Nat)
      (s.held .read) = .ok ((s.graph.view rootId).subtree.length - 1)
        { s.held .read with graph := s.graph } := rfl
  rw [size, locked_ok hs hbody]

end Operations

/-! ### Runs -/

/-- The stores that a new one comes to by calls, whatever their outcome. -/
inductive Reachable : Store → Prop where
  | new (config : Config) : Reachable { config := config }
  | request {s : Store} (messages : Messages) (r : Request) :
      Reachable s → Reachable (run (perform messages r) s).2
  | lookup {s : Store} (key : String) : Reachable s → Reachable (run (exists? key) s).2
  | len {s : Store} : Reachable s → Reachable (run size s).2
  | reset {s : Store} : Reachable s → Reachable { s with stats := {} }

theorem sound_new (config : Config) : Sound { config := config } := ⟨Graph.linked_rooted, rfl⟩

theorem Sound.run_perform {s : Store} (hs : s.Sound) (messages : Messages) (r : Request) :
    (run (perform messages r) s).2.Sound := by
  rcases hs.perform_cases messages r with ⟨code, cause, -, h⟩ | ⟨result, g, -, h, hg, -, -⟩
  · rw [run, h]
    exact ⟨hs.linked, hs.free⟩
  · rw [run, h]
    exact ⟨hg, hs.free⟩

theorem Reachable.sound {s : Store} (h : s.Reachable) : s.Sound := by
  induction h with
  | new config => exact sound_new config
  | request messages r _ ih => exact ih.run_perform messages r
  | lookup key _ ih =>
    rw [run, ih.exists?_ok key]
    exact ih
  | len _ ih =>
    rw [run, ih.size_ok]
    exact ih
  | reset _ ih => exact ⟨ih.linked, ih.free⟩

/-- The root is a directory, and every call that succeeds changes the path map as it says and
nowhere else. -/
theorem Reachable.pathMap_changes {s : Store} (h : s.Reachable) :
    s.pathMap [] = some .dir ∧
    (∀ messages r result s', perform messages r s = .ok result s' →
      s'.pathMap = r.effect s.pathMap) ∧
    (∀ key b s', exists? key s = .ok b s' → s'.pathMap = s.pathMap) ∧
    (∀ n s', size s = .ok n s' → s'.pathMap = s.pathMap) := by
  have hs := h.sound
  refine ⟨hs.closed.root, ?_, ?_, ?_⟩
  · intro messages r result s' hr
    rcases hs.perform_cases messages r with ⟨code, cause, -, h⟩ | ⟨result', g, -, h, -, hmap, -⟩
    · rw [h] at hr
      cases hr
    · rw [h] at hr
      rw [← (EStateM.Result.ok.inj hr).2]
      exact hmap
  · intro key b s' hr
    rw [hs.exists?_ok key] at hr
    rw [(EStateM.Result.ok.inj hr).2]
  · intro n s' hr
    rw [hs.size_ok] at hr
    rw [(EStateM.Result.ok.inj hr).2]

/-- A directory is replaced by a leaf: what was below it is gone. -/
theorem pathMap_set_directory :
    ∃ s : Store, s.Reachable ∧ s.pathMap ["a", "b"] = some (.leaf (some "v")) ∧
      ∃ result s', perform Messages.empty (.set "/x/../a" false none) s = .ok result s' ∧
        s'.pathMap ["a"] = some (.leaf none) ∧ s'.pathMap ["a", "b"] = none := by
  have hs := Reachable.request Messages.empty (.create "/a/b" false (some "v")) (.new {})
  obtain ⟨-, hreq, -, -⟩ := hs.pathMap_changes
  obtain ⟨result, s', h⟩ : ∃ result s', perform Messages.empty (.set "/x/../a" false none)
      (run (perform Messages.empty (.create "/a/b" false (some "v"))) {}).2 = .ok result s' :=
    ⟨_, _, rfl⟩
  refine ⟨_, hs, rfl, result, s', h, ?_, ?_⟩
  · rw [hreq _ _ _ _ h]
    rfl
  · rw [hreq _ _ _ _ h]
    rfl

/-- The tree is linked both ways: names, keys, kinds and links agree, every key is canonical and
leads back to its node, and no key occurs twice. -/
theorem Reachable.tree_links {s : Store} (h : s.Reachable) :
    (∃ root, s.graph.get? rootId = some root ∧ root.isDir = true ∧ root.key = "/" ∧
      root.parent = none) ∧
    ∀ p i, s.graph.at? rootId p = some i →
      ∃ v, s.graph.get? i = some v ∧
        (v.isDir = true → v.value = none) ∧
        (v.isDir = false → v.children = []) ∧
        (v.children.map (·.1)).Nodup ∧
        (∀ n c, (n, c) ∈ v.children → Path.IsSegment n ∧
          ∃ w, s.graph.get? c = some w ∧ w.key = Path.join v.key n ∧ w.name = n ∧
            w.parent = some i) ∧
        Path.normalize v.key = v.key ∧
        s.graph.resolve rootId v.key = .found i v.parent ∧
        ∀ q j w, s.graph.at? rootId q = some j → s.graph.get? j = some w → w.key = v.key →
          j = i := by
  have hg := h.sound.linked
  refine ⟨?_, fun p i hi => ?_⟩
  · obtain ⟨root, hr, hk, hdir, hp⟩ := hg.root
    exact ⟨root, hr, hdir, hk, hp⟩
  have hv := hg.get?_of_at? hi
  have hkey := hg.key_of_at? hi
  have hsound := hg.sound i _ hv
  refine ⟨s.graph.vertex i, hv, hsound.value_of_dir, hsound.children_of_leaf, hsound.nodup,
    ?_, ?_, ?_, ?_⟩
  · intro n c hm
    have hc := hg.child?_eq_some_iff.mpr ⟨_, hv, hm⟩
    obtain ⟨w, hw, hk, hp⟩ := hg.child i _ n c hv hm
    exact ⟨hsound.segment n c hm, w, hw, hk, hg.name_of_child? hc hw, hp⟩
  · rw [hkey, Path.normalize_render (hg.isPath_of_at? hi)]
  · exact Graph.resolve_of_at? hg hi
  · intro q j w hj hw hk
    have hkj := hg.key_of_at? hj
    rw [Graph.vertex_of_get? hw, hk, hkey] at hkj
    have hpq := Path.render_injective (hg.isPath_of_at? hi) (hg.isPath_of_at? hj) hkj
    rw [← hpq, hi] at hj
    exact (Option.some.inj hj).symm

/-- The node at `/a/b` after its directory has come into being with it. -/
theorem tree_links_create :
    ∃ s : Store, s.Reachable ∧ ∃ i v, s.graph.at? rootId ["a", "b"] = some i ∧
      s.graph.get? i = some v ∧ v.children = [] ∧
      s.graph.resolve rootId v.key = .found i v.parent := by
  have hs := Reachable.request Messages.empty (.create "a/b" false none) (.new {})
  obtain ⟨i, hi⟩ : ∃ i, (run (perform Messages.empty (.create "a/b" false none)) {}).2.graph.at?
      rootId ["a", "b"] = some i := ⟨_, rfl⟩
  obtain ⟨v, hv, -, hleaf, -, -, -, hr, -⟩ := hs.tree_links.2 _ i hi
  have hdir : v.isDir = false := by
    cases hi
    cases hv
    rfl
  exact ⟨_, hs, i, v, hi, hv, hleaf hdir, hr⟩

/-- A request is refused exactly when the path map says so, with the code and the cause that it
names and the message registered for the code; otherwise it succeeds.  The leaf in the way is the
only one, and a key exists exactly when reading it succeeds. -/
theorem Reachable.perform_outcome {s : Store} (h : s.Reachable) (messages : Messages)
    (r : Request) :
    (∀ l, s.pathMap.blocker r.path = some l ↔ s.pathMap.Blocks l r.path) ∧
    (∀ q i, s.graph.at? rootId q = some i → (s.graph.vertex i).key = Path.render q) ∧
    Path.render r.path = Path.normalize r.key ∧
    (∀ e, (∃ s', perform messages r s = .error (.refused e) s') ↔
      ∃ code cause, r.refusal s.pathMap = some (code, cause) ∧
        e = ⟨code, messages.get code, cause⟩) ∧
    ((∃ result s', perform messages r s = .ok result s') ↔ r.refusal s.pathMap = none) ∧
    (∀ key recursive sorted, ∃ b, exists? key s = .ok b s ∧
      (b = true ↔
        ∃ result s', perform messages (.get key recursive sorted) s = .ok result s')) := by
  have hs := h.sound
  have hM := hs.closed
  refine ⟨fun l => hM.blocker_eq_some_iff, fun q i hi => hs.linked.key_of_at? hi, r.render_path,
    hs.perform_refused_iff messages r, hs.perform_ok_iff messages r, fun key recursive sorted => ?_⟩
  refine ⟨_, hs.exists?_ok key, ?_⟩
  rw [hs.perform_ok_iff, Request.refusal, hM.absence_eq_none_iff, Option.isSome_iff_ne_none]
  rfl

/-- A leaf far above the place stands in the way. -/
theorem perform_outcome_below_leaf :
    ∃ s : Store, s.Reachable ∧
      ∃ s', perform Messages.empty (.update "/a/b/c" none) s =
        .error (.refused ⟨ErrorCode.notDir, "", "/a"⟩) s' := by
  have hs := Reachable.request Messages.empty (.create "/a" false none) (.new {})
  obtain ⟨-, -, -, herr, -, -⟩ := hs.perform_outcome Messages.empty (.update "/a/b/c" none)
  exact ⟨_, hs, (herr _).mpr ⟨_, _, rfl, rfl⟩⟩

end Store

end TreeStore
