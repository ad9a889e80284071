import TreeStore.Proofs.Effect
import TreeStore.Proofs.Store.Run

/-!
# What results show

The states in a result are those that a reader of the whole node finds just before the operation and
just after it.  So the state before an overwriting success of a leaf carries the value that was
written there last.

* `Sound.perform_answer`: what a success answers, from the snapshot at its path;
* `Sound.reads_iff`, `Sound.shows_iff`: what a reader finds is a copy of the snapshot;
* `Run.lastWrite_of_leaf`: a leaf has the value that was written last.
-/

namespace TreeStore

/-- What a request answers when it succeeds and `before` stood at its path. -/
def Request.answer (sorts : Bool) (before : Option Node) (r : Request) : Option Result :=
  let key := Path.normalize r.key
  match r with
  | .get _ recursive sorted => before.map fun n =>
    ⟨.get, n.clone (if recursive then none else some 1) (sorted.getD sorts), none⟩
  | .create _ isDir value => some ⟨.create, .mk key isDir value, none⟩
  | .set _ isDir value => some ⟨.set, .mk key isDir value, before⟩
  | .update _ value => some ⟨.update, .leaf key value, before⟩
  | .delete .. => before.map fun n => ⟨.delete, n, some n⟩

namespace Store

/-- A reader of all that is at the key and below it, in its own order, finds `n`. -/
def Shows (s : Store) (key : String) (n : Node) : Prop :=
  ∀ messages, ∃ read s', perform messages (.get key true (some false)) s = .ok read s' ∧
    read.node = n

/-- A reader of the key finds `n`, whatever messages are registered. -/
def Reads (s : Store) (key : String) (recursive : Bool) (sorted : Option Bool) (n : Node) : Prop :=
  ∀ messages, ∃ read s', perform messages (.get key recursive sorted) s = .ok read s' ∧
    read.node = n

/-- What a success wrote at a path. -/
def Served.wrote (d : Served) (p : List String) : Option Entry :=
  match d.outcome with
  | .ok _ => d.request.writes p
  | .error _ => none

/-- What the latest success that wrote at a path wrote there. -/
def lastWrite (served : List Served) (p : List String) : Option Entry :=
  served.reverse.findSome? (·.wrote p)

theorem lastWrite_concat (served : List Served) (d : Served) (p : List String) :
    lastWrite (served ++ [d]) p = (d.wrote p).or (lastWrite served p) := by
  rw [lastWrite, List.reverse_concat, List.findSome?_cons]
  cases d.wrote p <;> rfl

section Sound

variable {s s' : Store} {messages : Messages} {r : Request} {result : Result}

/-- A success, with the graph after it. -/
theorem Sound.of_ok (hs : s.Sound) (h : perform messages r s = .ok result s') :
    r.refusal s.pathMap = none ∧ s'.Sound ∧ s'.pathMap = r.effect s.pathMap ∧
      s.Answered r result s'.graph ∧ s.graph.KeepsOrder s'.graph ∧ s'.config = s.config := by
  rcases hs.perform_cases messages r with ⟨_, _, -, hp⟩ | ⟨_, g, hr, hp, hg, hmap, hq, ho⟩
  · rw [hp] at h
    cases h
  · rw [hp] at h
    cases h
    exact ⟨hr, ⟨hg, hs.free⟩, hmap, hq, ho, rfl⟩

/-- The node that a success wrote, as it stands there after it. -/
theorem Sound.snapshot?_of_writes (hs : s.Sound) (hs' : s'.Sound) (hr : r.refusal s.pathMap = none)
    (hmap : s'.pathMap = r.effect s.pathMap) {isDir : Bool} {value : Option String}
    (hw : r.writes r.path = some (.new isDir value)) :
    s'.graph.snapshot? r.path = some (.mk (Path.normalize r.key) isDir value) := by
  have hthere : s'.graph.pathMap r.path = some (.new isDir value) := by
    rw [← pathMap, hmap, Request.effect_of_writes hw]
  have hbare (n : String) : s'.graph.pathMap (r.path ++ [n]) = none := by
    rw [← pathMap, hmap, Request.effect_bare hs.closed hr hw]
  rw [hs'.linked.snapshot?_of_bare hthere hbare, Request.render_path]

/-- What a success answers depends on what stood at its path alone. -/
theorem Sound.perform_answer (hs : s.Sound) (h : perform messages r s = .ok result s') :
    r.answer s.sortsListings (s.graph.snapshot? r.path) = some result := by
  obtain ⟨hr, hs', hmap, hq, -, -⟩ := hs.of_ok h
  have hwritten {isDir : Bool} {value : Option String}
      (hw : r.writes r.path = some (.new isDir value))
      (hnode : s'.graph.snapshot? r.path = some result.node) :
      Node.mk (Path.normalize r.key) isDir value = result.node :=
    Option.some.inj ((hs.snapshot?_of_writes hs' hr hmap hw).symm.trans hnode)
  obtain ⟨action, node, prev⟩ := result
  cases r with
  | get key recursive sorted =>
    obtain ⟨haction, ⟨i, hi, hnode⟩, hprev⟩ := hq
    simp only at haction hnode hprev
    rw [Graph.snapshot?_of_at? hi, haction, hnode, hprev]
    rfl
  | create key isDir value =>
    obtain ⟨haction, hnode, hprev⟩ := hq
    have hnode := hwritten (if_pos rfl) hnode
    simp only at haction hnode hprev
    rw [haction, ← hnode, hprev]
    rfl
  | set key isDir value =>
    obtain ⟨haction, hnode, hprev⟩ := hq
    have hnode := hwritten (if_pos rfl) hnode
    simp only at haction hnode hprev
    rw [haction, ← hnode, hprev]
    rfl
  | update key value =>
    obtain ⟨haction, hnode, hprev⟩ := hq
    have hleaf : (Request.update key value).writes (Request.update key value).path =
        some (.new false value) := if_pos rfl
    have hnode := hwritten hleaf hnode
    simp only at haction hnode hprev
    rw [haction, ← hnode, hprev]
    rfl
  | delete key recursive dir =>
    obtain ⟨haction, hnode, hprev⟩ := hq
    simp only at haction hnode hprev
    rw [hnode, haction, hprev, Node.clone_whole]
    rfl

theorem Sound.reads_iff (hs : s.Sound) {key : String} {recursive : Bool} {sorted : Option Bool}
    {n : Node} : s.Reads key recursive sorted n ↔
      (s.graph.snapshot? (Path.split (Path.normalize key))).map
        (Node.clone (if recursive then none else some 1) (sorted.getD s.sortsListings)) =
          some n := by
  have hread {messages : Messages} {read : Result} {s' : Store}
      (hok : perform messages (.get key recursive sorted) s = .ok read s') :
      (s.graph.snapshot? (Path.split (Path.normalize key))).map
        (Node.clone (if recursive then none else some 1) (sorted.getD s.sortsListings)) =
          some read.node := by
    have hanswer := hs.perform_answer hok
    rw [Request.answer, Option.map_eq_some_iff] at hanswer
    obtain ⟨before, hbefore, rfl⟩ := hanswer
    exact congrArg (Option.map _) hbefore
  constructor
  · intro h
    obtain ⟨read, s', hok, hnode⟩ := h Messages.empty
    rw [hread hok, hnode]
  · intro h messages
    obtain ⟨before, hbefore, -⟩ := Option.map_eq_some_iff.mp h
    have hthere : s.pathMap (Path.split (Path.normalize key)) ≠ none :=
      Graph.exists_snapshot?_iff.mp ⟨before, hbefore⟩
    have hfree : (Request.get key recursive sorted).refusal s.pathMap = none :=
      (Request.refusal_get_eq_none_iff hs.closed).mpr hthere
    obtain ⟨read, s', hok⟩ := (hs.perform_ok_iff messages _).mpr hfree
    exact ⟨read, s', hok, Option.some.inj ((hread hok).symm.trans h)⟩

theorem Sound.reads (hs : s.Sound) {key : String} {n : Node}
    (hn : s.graph.snapshot? (Path.split (Path.normalize key)) = some n) (recursive : Bool)
    (sorted : Option Bool) : s.Reads key recursive sorted
      (n.clone (if recursive then none else some 1) (sorted.getD s.sortsListings)) :=
  hs.reads_iff.mpr (congrArg (Option.map _) hn)

theorem Sound.shows_iff (hs : s.Sound) {key : String} {n : Node} :
    s.Shows key n ↔ s.graph.snapshot? (Path.split (Path.normalize key)) = some n := by
  have hwhole : Node.clone none false = id := funext Node.clone_whole
  have hreads : s.Reads key true (some false) n ↔ _ := hs.reads_iff
  rw [if_pos rfl, Option.getD_some, hwhole, Option.map_id, id] at hreads
  exact hreads

end Sound

/-! ### The states in a result -/

section Answered

variable {s : Store} {r : Request} {result : Result} {g : Graph} (h : s.Answered r result g)
include h

theorem Answered.node_after (ha : r.action = .create ∨ r.action = .set ∨ r.action = .update) :
    g.snapshot? r.path = some result.node := by
  cases r with
  | create key isDir value => exact h.2.1
  | set key isDir value => exact h.2.1
  | update key value => exact h.2.1
  | _ => simp [Request.action] at ha

theorem Answered.prev_before (ha : r.action = .set ∨ r.action = .update ∨ r.action = .delete) :
    result.prev = s.graph.snapshot? r.path := by
  cases r with
  | set key isDir value => exact h.2.2
  | update key value => exact h.2.2
  | delete key recursive dir =>
    obtain ⟨-, hnode, hprev⟩ := h
    rw [hprev, hnode, Node.clone_whole]
  | _ => simp [Request.action] at ha

theorem Answered.prev_none (ha : r.action = .get ∨ r.action = .create) : result.prev = none := by
  cases r with
  | get key recursive sorted => exact h.2.2
  | create key isDir value => exact h.2.2
  | _ => simp [Request.action] at ha

theorem Answered.node_before (ha : r.action = .delete) :
    s.graph.snapshot? r.path = some result.node := by
  cases r with
  | delete key recursive dir => exact h.2.1
  | _ => cases ha

theorem Answered.key_node (hs : s.graph.Linked) (hg : g.Linked) :
    result.node.key = Path.normalize r.key := by
  rw [← r.render_path]
  cases r with
  | get key recursive sorted =>
    obtain ⟨-, ⟨i, hi, hnode⟩, -⟩ := h
    rw [hnode, Node.key_clone]
    exact hs.key_of_snapshot? (Graph.snapshot?_of_at? hi)
  | create key isDir value => exact hg.key_of_snapshot? h.2.1
  | set key isDir value => exact hg.key_of_snapshot? h.2.1
  | update key value => exact hg.key_of_snapshot? h.2.1
  | delete key recursive dir => exact hs.key_of_snapshot? h.2.1

theorem Answered.key_prev (hs : s.graph.Linked) {prev : Node} (hprev : result.prev = some prev) :
    prev.key = Path.normalize r.key := by
  have hsome : result.prev ≠ none := by
    rw [hprev]
    exact Option.some_ne_none _
  rw [← r.render_path]
  refine hs.key_of_snapshot? ((h.prev_before ?_).symm.trans hprev)
  cases ha : r.action with
  | get => exact absurd (h.prev_none (Or.inl ha)) hsome
  | create => exact absurd (h.prev_none (Or.inr ha)) hsome
  | set => exact Or.inl rfl
  | update => exact Or.inr (Or.inl rfl)
  | delete => exact Or.inr (Or.inr rfl)

end Answered

/-! ### The latest write -/

theorem Run.lastWrite_of_leaf {config : Config} {served : List Served} {s : Store}
    {p : List String} {v : Option String} (h : Run { config := config } served s)
    (hp : s.pathMap p = some (.leaf v)) : lastWrite served p = some (.leaf v) := by
  refine h.invariant (.new config)
    (I := fun served M => M p = some (.leaf v) → lastWrite served p = some (.leaf v))
    (fun hp => absurd hp (Graph.pathMap_rooted_ne_leaf p v)) (fun served M r f ih hp => ?_)
    (fun served M r result _ _ ih hp => ?_) hp
  · rw [lastWrite_concat]
    exact ih hp
  · rw [lastWrite_concat]
    show (r.writes p).or _ = _
    cases hw : r.writes p with
    | none => exact ih (Request.leaf_of_effect hw hp)
    | some e => rw [← hp, Request.effect_of_writes hw, Option.some_or]

/-- The states in a result have the canonical key.  The state after a `create`, `set` or `update`
is what a reader finds then, the state before an `update` or a `set` of what was there is what a
reader found before, and a `delete` gives the latter twice; nothing else has a state before.  So
whoever replaces or removes a leaf is handed the value that was written there last. -/
theorem Reachable.result_snapshots {s s' : Store} {messages : Messages} {r : Request}
    {result : Result} (hs : s.Reachable) (h : perform messages r s = .ok result s') :
    (result.node.key = Path.normalize r.key ∧
      ∀ prev, result.prev = some prev → prev.key = Path.normalize r.key) ∧
    (r.action = .create ∨ r.action = .set ∨ r.action = .update → s'.Shows r.key result.node) ∧
    (r.action = .update ∨ r.action = .set ∧ s.pathMap r.path ≠ none →
      ∃ prev, result.prev = some prev ∧ s.Shows r.key prev) ∧
    (r.action = .get ∨ r.action = .create → result.prev = none) ∧
    (r.action = .set → (result.prev = none ↔ s.pathMap r.path = none)) ∧
    (r.action = .delete → s.Shows r.key result.node ∧ result.prev = some result.node) ∧
    ∀ config served v, Run { config := config } served s →
      r.action = .set ∨ r.action = .update ∨ r.action = .delete →
      s.pathMap r.path = some (.leaf v) →
      result.prev = some (.leaf (Path.normalize r.key) v) ∧
        lastWrite served r.path = some (.leaf v) := by
  have hsound := hs.sound
  obtain ⟨hr, hs', -, hq, -, -⟩ := hsound.of_ok h
  refine ⟨⟨hq.key_node hsound.linked hs'.linked, fun prev => hq.key_prev hsound.linked⟩,
    fun ha => hs'.shows_iff.mpr (hq.node_after ha), fun ha => ?_, hq.prev_none, fun ha => ?_,
    fun ha => ⟨hsound.shows_iff.mpr (hq.node_before ha), ?_⟩,
    fun config served v hrun ha hleaf => ⟨?_, hrun.lastWrite_of_leaf hleaf⟩⟩
  · have hthere : s.graph.snapshot? r.path ≠ none := by
      rw [ne_eq, Graph.snapshot?_eq_none_iff]
      rcases ha with ha | ⟨-, hthere⟩
      · exact Request.present_of_success hsound.closed hr (by simp [ha]) (by simp [ha])
      · exact hthere
    obtain ⟨prev, hprev⟩ := Option.ne_none_iff_exists'.mp hthere
    refine ⟨prev, ?_, hsound.shows_iff.mpr hprev⟩
    rw [hq.prev_before (ha.elim (Or.inr ∘ Or.inl) (Or.inl ·.1)), hprev]
  · rw [hq.prev_before (Or.inl ha), Graph.snapshot?_eq_none_iff]
    rfl
  · rw [hq.prev_before (Or.inr (Or.inr ha)), hq.node_before ha]
  · rw [hq.prev_before ha, hsound.linked.snapshot?_eq, ← pathMap, hleaf, r.render_path]
    rfl

/-- Who deletes a leaf is handed the value of its last update. -/
theorem result_snapshots_deleted :
    ∃ (s s' : Store) (served : List Served) (result : Result), Run {} served s ∧
      perform Messages.empty (.delete "./a" false false) s = .ok result s' ∧
      result.prev = some (.leaf "/a" (some "2")) ∧
      lastWrite served ["a"] = some (.leaf (some "2")) := by
  have hrun := (Run.start (s := {})).request Messages.empty (.create "/a" false (some "1"))
    |>.request Messages.empty (.update "a" (some "2"))
  obtain ⟨s, s', served, result, hs, hleaf, h⟩ : ∃ s s' served result, Run {} served s ∧
      s.pathMap ["a"] = some (.leaf (some "2")) ∧
      perform Messages.empty (.delete "./a" false false) s = .ok result s' :=
    ⟨_, _, _, _, hrun, rfl, rfl⟩
  obtain ⟨-, -, -, -, -, -, hlast⟩ := (hs.reachable (.new {})).result_snapshots h
  obtain ⟨hprev, hwrite⟩ := hlast {} served _ hs (Or.inr (Or.inr rfl)) hleaf
  exact ⟨s, s', served, result, hs, h, hprev, hwrite⟩

end Store

end TreeStore
