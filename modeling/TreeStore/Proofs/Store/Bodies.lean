import TreeStore.Proofs.Graph.View

/-!
# The bodies of the operations

`Meets` says of a body what a request promises: it is refused exactly when the path map of the store
says so, and then the store is as before; otherwise it returns, the graph stays linked, its path map
has changed as the request says, and siblings have kept their order.  Each body meets its request on
a store whose graph is linked.

No body can stop in any other way: adding a child to a leaf, a result with two keys and a node
without a directory above it do not occur.
-/

namespace TreeStore

/-- What stands at every path of the store. -/
def Store.pathMap (s : Store) : PathMap := s.graph.pathMap

namespace Store

open TreeStore.Graph (rootId)

/-! ### Calls step by step -/

section Steps

variable {α β : Type} {s s' : Store}

theorem bind_ok {c : Call α} {a : α} (h : c s = .ok a s') (f : α → Call β) :
    (c >>= f) s = f a s' := by
  show EStateM.bind c f s = _
  rw [EStateM.bind, h]

theorem bind_error {c : Call α} {e : Fault} (h : c s = .error e s') (f : α → Call β) :
    (c >>= f) s = .error e s' := by
  show EStateM.bind c f s = _
  rw [EStateM.bind, h]

theorem resolve_apply (key : String) (s : Store) :
    resolve key s = .ok (s.graph.resolve rootId key) s := rfl

theorem vertex_apply (i : Nat) (s : Store) : vertex i s = .ok (s.graph.vertex i) s := rfl

theorem snapshot_apply (i : Nat) (s : Store) :
    snapshot i s = .ok ((s.graph.view i).clone none false) s := rfl

theorem newNode_apply (key : String) (isDir : Bool) (value : Option String) (s : Store) :
    newNode key isDir value s =
      .ok s.graph.vertices.length { s with graph := (s.graph.new key isDir value).2 } := rfl

theorem attach_apply {d c : Nat} {g' : Graph} (h : s.graph.addChild d c = .ok g') :
    attach d c s = .ok () { s with graph := g' } := by
  rw [attach, h]

theorem detach_apply (d : Nat) (name : String) (s : Store) :
    detach d name s = .ok () { s with graph := (s.graph.removeChild d name).2 } := rfl

theorem setValue_apply (i : Nat) (value : Option String) (s : Store) :
    setValue i value s = .ok () { s with graph := s.graph.setValue i value } := rfl

theorem parentOf_apply {v : Vertex} {d : Nat} (h : v.parent = some d) (s : Store) :
    parentOf v s = .ok d s := by
  rw [parentOf, h]
  rfl

theorem refuse_apply (messages : Messages) (code : Int) (cause : String) (s : Store) :
    (refuse messages code cause : Call α) s = .error (.refused (messages.error code cause)) s := rfl

theorem make_apply {a : Action} {node prev : Node} (h : prev.key = node.key) (s : Store) :
    ofExcept (Result.make a node (some prev)) s = .ok ⟨a, node, some prev⟩ s := by
  rw [Result.make, if_pos h]
  rfl

end Steps

/-! ### Requests and bodies -/

/-- What a request that succeeds on `s` answers, where `g` is the graph after it. -/
def Answered (s : Store) (r : Request) (result : Result) (g : Graph) : Prop :=
  result.action = r.action ∧
  match r with
  | .get _ recursive sorted =>
    (∃ i, s.graph.at? rootId r.path = some i ∧ result.node =
      (s.graph.view i).clone (if recursive then none else some 1) (sorted.getD s.sortsListings)) ∧
    result.prev = none
  | .create .. => g.snapshot? r.path = some result.node ∧ result.prev = none
  | .set .. | .update .. =>
    g.snapshot? r.path = some result.node ∧ result.prev = s.graph.snapshot? r.path
  | .delete .. =>
    s.graph.snapshot? r.path = some result.node ∧
    result.prev = some (result.node.clone none false)

/-- The body does what the request promises; `Q` says more about its answer and the new graph. -/
inductive Meets {α : Type} (messages : Messages) (r : Request) (body : Call α)
    (Q : α → Graph → Prop) (s : Store) : Prop where
  | refused {code : Int} {cause : String} (h : r.refusal s.pathMap = some (code, cause))
      (hb : body s = .error (.refused (messages.error code cause)) s)
  | done {a : α} {g' : Graph} (h : r.refusal s.pathMap = none)
      (hb : body s = .ok a { s with graph := g' }) (hg : g'.Linked)
      (he : g'.pathMap = r.effect s.pathMap) (ho : s.graph.KeepsOrder g') (hq : Q a g')

/-! ### One body after the other -/

section Bodies

variable {messages : Messages} {s : Store} (hs : s.graph.Linked)
include hs

theorem refuse_leaf {α : Type} (messages : Messages) {q : List String} {l : Nat}
    (hl : s.graph.at? rootId q = some l) :
    (do refuse messages ErrorCode.notDir (← vertex l).key : Call α) s =
      .error (.refused (messages.error ErrorCode.notDir (Path.render q))) s := by
  rw [bind_ok (vertex_apply l s), hs.key_of_at? hl, refuse_apply]

/-- The node at a path is found, or the call is refused as the path map says. -/
theorem locate_cases (messages : Messages) (key : String) {p : List String}
    (hp : Path.split (Path.normalize key) = p) :
    (∃ code cause, s.pathMap.absence p = some (code, cause) ∧
      locate messages (Path.normalize key) (s.graph.resolve rootId key) s =
        .error (.refused (messages.error code cause)) s) ∨
    (∃ i, s.graph.at? rootId p = some i ∧ s.pathMap.absence p = none ∧
      locate messages (Path.normalize key) (s.graph.resolve rootId key) s = .ok i s) := by
  rcases hs.resolve_cases key hp with ⟨i, hi, hr, hb⟩ | ⟨q, n, rest, d, -, -, -, -, hr, hM, hb⟩ |
    ⟨q, l, names, hl, hr, -, hb⟩
  · refine Or.inr ⟨i, hi, PathMap.absence_of_present hb (Graph.pathMap_of_at? hi), ?_⟩
    rw [hr]
    rfl
  · refine Or.inl ⟨_, _, PathMap.absence_of_absent hb hM, ?_⟩
    rw [hr, ← hp, Path.render_split_normalize]
    rfl
  · refine Or.inl ⟨_, _, PathMap.absence_of_blocker hb, ?_⟩
    rw [hr, locate, refuse_leaf hs messages hl]

/-- The missing directories of a path and its node come into being one after the other. -/
theorem build_ok {isDir : Bool} {value : Option String} {p : List String} {n : String}
    {rest : List String} {d : Nat} (hp : s.graph.at? rootId p = some d)
    (hdir : (s.graph.vertex d).isDir = true) (hc : s.graph.child? d n = none)
    (hpath : Path.IsPath (p ++ n :: rest)) :
    ∃ i g', build (Path.render (p ++ n :: rest)) isDir value (n :: rest) d s =
        .ok i { s with graph := g' } ∧ g'.Linked ∧ g'.at? rootId (p ++ n :: rest) = some i ∧
      g'.pathMap = s.graph.pathMap.grow (p ++ n :: rest) (.new isDir value) ∧
      s.graph.KeepsOrder g' := by
  induction rest generalizing s p n d with
  | nil =>
    have hn := (Path.isPath_append.mp hpath).2 n (List.mem_cons_self ..)
    have hnone : s.graph.pathMap (p ++ [n]) = none := by
      rw [Graph.pathMap_eq_none_iff, Graph.at?_concat, hp, Option.bind_some, hc]
    have hpd : s.graph.pathMap p ≠ none := by rw [Graph.pathMap_of_at? hp]; simp
    obtain ⟨g', hok, hg', hat, hmap, horder⟩ := hs.hang hp hdir hn isDir value
    refine ⟨s.graph.vertices.length, g', ?_, hg', hat, ?_, horder⟩
    · rw [build, bind_ok (newNode_apply _ isDir value s), bind_ok (attach_apply hok)]
      rfl
    · rw [hmap, hs.closed_pathMap.replace_eq_grow hpd hnone]
  | cons m rest ih =>
    have hn := (Path.isPath_append.mp hpath).2 n (List.mem_cons_self ..)
    have hsplit : p ++ n :: m :: rest = (p ++ [n]) ++ m :: rest := by simp
    have hnone : s.graph.pathMap (p ++ [n]) = none := by
      rw [Graph.pathMap_eq_none_iff, Graph.at?_concat, hp, Option.bind_some, hc]
    obtain ⟨g', hok, hg', hat, hmap, horder⟩ := hs.hang hp hdir hn true none
    have hdir' : (g'.vertex s.graph.vertices.length).isDir = true := by
      rw [← Vertex.entry_eq_dir_iff, ← Option.some.injEq, ← Graph.pathMap_of_at? hat, hmap,
        PathMap.replace, if_pos rfl]
      rfl
    have hc' : g'.child? s.graph.vertices.length m = none := by
      have h : g'.pathMap ((p ++ [n]) ++ [m]) = none := by
        rw [hmap, PathMap.replace, if_neg (by simp), if_pos (List.prefix_append _ _)]
      rwa [Graph.pathMap_eq_none_iff, Graph.at?_concat, hat, Option.bind_some] at h
    have hkey : Path.join (s.graph.vertex d).key n = Path.render (p ++ [n]) := by
      rw [hs.key_of_at? hp, Path.join_render (hs.isPath_of_at? hp)]
    rw [hsplit] at hpath ⊢
    obtain ⟨i, g'', hb, hg'', hat', hmap', horder'⟩ :=
      @ih { s with graph := g' } hg' (p ++ [n]) m _ hat hdir' hc' hpath
    have hgrow (q : List String) : s.graph.names q ⊆ g'.names q := by
      intro x hx
      rw [hs.mem_names_iff] at hx
      rw [hg'.mem_names_iff, hmap]
      exact hs.closed_pathMap.replace_ne_none hnone hx
    refine ⟨i, g'', ?_, hg'', hat', ?_, horder.trans hgrow horder'⟩
    · rw [build, bind_ok (vertex_apply d s), hkey, bind_ok (newNode_apply _ true none s),
        bind_ok (attach_apply hok), hb]
    · rw [hmap', hmap]
      exact hs.closed_pathMap.grow_replace_dir hnone (List.prefix_append _ _) (by simp) _

theorem build_missing {isDir : Bool} {value : Option String} {key : String} {p q : List String}
    {n : String} {rest : List String} {d : Nat} (hp : Path.split (Path.normalize key) = p)
    (hsplit : p = q ++ n :: rest) (hd : s.graph.at? rootId q = some d)
    (hdir : (s.graph.vertex d).isDir = true) (hc : s.graph.child? d n = none) :
    ∃ i g', build (Path.normalize key) isDir value (n :: rest) d s = .ok i { s with graph := g' } ∧
      g'.Linked ∧ g'.at? rootId p = some i ∧
      g'.pathMap = s.pathMap.grow p (.new isDir value) ∧ s.graph.KeepsOrder g' := by
  have hpath := Path.isPath_split_normalize key
  rw [← Path.render_split_normalize key]
  rw [hp, hsplit] at hpath ⊢
  exact build_ok hs hd hdir hc hpath

theorem readNode_meets (key : String) (recursive b : Bool) (sorted : Option Bool) :
    Meets messages (.get key recursive sorted) (readNode messages key recursive b)
      (fun node _ => ∃ i, s.graph.at? rootId (Request.get key recursive sorted).path = some i ∧
        node = (s.graph.view i).clone (if recursive then none else some 1) b) s := by
  have href : (Request.get key recursive sorted).refusal s.pathMap =
      s.pathMap.absence (Request.get key recursive sorted).path := by rw [Request.refusal]
  rcases locate_cases hs messages key rfl with ⟨code, cause, habs, hloc⟩ | ⟨i, hi, habs, hloc⟩
  · refine .refused (href.trans habs) ?_
    rw [readNode, bind_ok (resolve_apply key s), bind_error hloc]
  · refine .done (href.trans habs) ?_ hs rfl (.refl _) ⟨i, hi, rfl⟩
    rw [readNode, bind_ok (resolve_apply key s), bind_ok hloc]
    rfl

theorem createNode_meets (key : String) (isDir : Bool) (value : Option String) :
    Meets messages (.create key isDir value) (createNode messages key isDir value)
      (s.Answered (.create key isDir value)) s := by
  obtain ⟨p, hp⟩ : ∃ p, (Request.create key isDir value).path = p := ⟨_, rfl⟩
  have href : (Request.create key isDir value).refusal s.pathMap =
      if s.pathMap p ≠ none then some (ErrorCode.exists, Path.render p)
      else s.pathMap.obstacle p := by
    rw [Request.refusal, hp]
  rcases hs.resolve_cases key hp with ⟨i, hi, hr, -⟩ |
    ⟨q, n, rest, d, hsplit, hd, hdir, hc, hr, hM, hb⟩ | ⟨q, l, names, hl, hr, hM, hb⟩
  · rw [if_pos (by rw [pathMap, Graph.pathMap_of_at? hi]; simp), ← hp, Request.render_path] at href
    refine .refused href ?_
    rw [createNode, bind_ok (resolve_apply key s), hr]
    rfl
  · rw [if_neg (by rw [pathMap, hM]; simp), pathMap, PathMap.obstacle_of_free hb] at href
    obtain ⟨i, g', hbuild, hg', hat, hmap, horder⟩ :=
      @build_missing s hs isDir value key p q n rest d hp hsplit hd hdir hc
    have heff : g'.pathMap = (Request.create key isDir value).effect s.pathMap := by
      rw [hmap, Request.effect, hp]
    have hbody : createNode messages key isDir value s =
        .ok ⟨.create, (g'.view i).clone none false, none⟩ { s with graph := g' } := by
      rw [createNode, bind_ok (resolve_apply key s), hr]
      exact bind_ok hbuild _
    refine .done href hbody hg' heff horder ⟨rfl, ?_, rfl⟩
    rw [hp, Graph.snapshot?, hat, Option.map_some]
  · rw [if_neg (by rw [pathMap, hM]; simp), pathMap, PathMap.obstacle_of_blocker hb] at href
    refine .refused href ?_
    rw [createNode, bind_ok (resolve_apply key s), hr]
    exact refuse_leaf hs messages hl

theorem setNode_meets (key : String) (isDir : Bool) (value : Option String) :
    Meets messages (.set key isDir value) (setNode messages key isDir value)
      (s.Answered (.set key isDir value)) s := by
  obtain ⟨p, hp⟩ : ∃ p, (Request.set key isDir value).path = p := ⟨_, rfl⟩
  have hroot : Path.normalize key = "/" ↔ p = [] := by
    rw [← hp, Request.path_eq_nil_iff, Request.key]
  have href : (Request.set key isDir value).refusal s.pathMap =
      if p = [] then some (ErrorCode.rootReadOnly, "/") else s.pathMap.obstacle p := by
    rw [Request.refusal, hp]
  have heff : (Request.set key isDir value).effect s.pathMap =
      if s.pathMap p = none then s.pathMap.grow p (.new isDir value)
      else s.pathMap.replace p (.new isDir value) := by
    rw [Request.effect, hp]
  by_cases hnil : p = []
  · rw [if_pos hnil] at href
    refine .refused href ?_
    rw [setNode, bind_ok (resolve_apply key s), if_pos (hroot.mpr hnil), refuse_apply]
  rw [if_neg hnil] at href
  have hnot : ¬ Path.normalize key = "/" := fun h => hnil (hroot.mp h)
  rcases hs.resolve_cases key hp with ⟨i, hi, hr, hb⟩ |
    ⟨q, n, rest, d, hsplit, hd, hdir, hc, hr, hM, hb⟩ | ⟨q, l, names, hl, hr, hM, hb⟩
  · -- the node there is replaced in its directory, which its link names
    rw [pathMap, PathMap.obstacle_of_free hb] at href
    rw [if_neg (by rw [pathMap, Graph.pathMap_of_at? hi]; simp)] at heff
    obtain ⟨q, n, rfl⟩ := (List.eq_nil_or_concat' p).resolve_left hnil
    obtain ⟨d, hd, hc⟩ := Graph.at?_concat_eq_some_iff.mp hi
    obtain ⟨-, -, -, -, -, hn, -, -⟩ := hs.of_child? hc
    obtain ⟨g', hok, hg', hat, hmap, horder⟩ :=
      hs.hang hd (Graph.isDir_of_child? hc) hn isDir value
    have hold := hs.get?_of_at? hi
    have hparent := hs.parent_of_child? hc hold
    have hsame : (s.graph.new (Path.render (q ++ [n])) isDir value).2.vertex i = s.graph.vertex i :=
      Graph.vertex_of_get? (Graph.get?_new_of_some _ isDir value hold)
    have hkeys : ((s.graph.view i).clone none false).key =
        ((g'.view s.graph.vertices.length).clone none false).key := by
      rw [hs.key_snapshot hi, hg'.key_snapshot hat]
    have hbody : setNode messages key isDir value s =
        .ok ⟨.set, (g'.view s.graph.vertices.length).clone none false,
          some ((s.graph.view i).clone none false)⟩ { s with graph := g' } := by
      rw [setNode, bind_ok (resolve_apply key s), if_neg hnot, hr]
      refine (bind_ok (snapshot_apply i s) _).trans ?_
      refine (bind_ok (vertex_apply i s) _).trans ?_
      rw [hs.key_of_at? hi]
      refine (bind_ok (newNode_apply _ isDir value s) _).trans ?_
      refine (bind_ok (vertex_apply i _) _).trans ?_
      rw [hsame]
      refine (bind_ok (parentOf_apply hparent _) _).trans ?_
      refine (bind_ok (attach_apply hok) _).trans ?_
      refine (bind_ok (snapshot_apply _ _) _).trans ?_
      exact make_apply hkeys _
    refine .done href hbody hg' (hmap.trans heff.symm) horder ⟨rfl, ?_, ?_⟩
    · rw [hp, Graph.snapshot?, hat, Option.map_some]
    · rw [hp, Graph.snapshot?, hi, Option.map_some]
  · rw [pathMap, PathMap.obstacle_of_free hb] at href
    rw [pathMap, if_pos hM] at heff
    obtain ⟨i, g', hbuild, hg', hat, hmap, horder⟩ :=
      @build_missing s hs isDir value key p q n rest d hp hsplit hd hdir hc
    have hbody : setNode messages key isDir value s =
        .ok ⟨.set, (g'.view i).clone none false, none⟩ { s with graph := g' } := by
      rw [setNode, bind_ok (resolve_apply key s), if_neg hnot, hr]
      exact bind_ok hbuild _
    refine .done href hbody hg' (hmap.trans heff.symm) horder ⟨rfl, ?_, ?_⟩
    · rw [hp, Graph.snapshot?, hat, Option.map_some]
    · rw [hp, Graph.snapshot?, Graph.pathMap_eq_none_iff.mp hM, Option.map_none]
  · rw [pathMap, PathMap.obstacle_of_blocker hb] at href
    refine .refused href ?_
    rw [setNode, bind_ok (resolve_apply key s), if_neg hnot, hr]
    exact refuse_leaf hs messages hl

theorem updateNode_meets (key : String) (value : Option String) :
    Meets messages (.update key value) (updateNode messages key value)
      (s.Answered (.update key value)) s := by
  obtain ⟨p, hp⟩ : ∃ p, (Request.update key value).path = p := ⟨_, rfl⟩
  have href : (Request.update key value).refusal s.pathMap = (s.pathMap.absence p).or
      (if s.pathMap p = some .dir then some (ErrorCode.notFile, Path.render p) else none) := by
    rw [Request.refusal, hp]
  rcases locate_cases hs messages key hp with ⟨code, cause, habs, hloc⟩ | ⟨i, hi, habs, hloc⟩
  · rw [habs, Option.some_or] at href
    refine .refused href ?_
    rw [updateNode, bind_ok (resolve_apply key s), bind_error hloc]
  have hpi : s.pathMap p = some (s.graph.vertex i).entry := Graph.pathMap_of_at? hi
  rw [habs, Option.none_or, hpi] at href
  cases hdir : (s.graph.vertex i).isDir with
  | true =>
    rw [if_pos (by rw [Vertex.entry_of_isDir hdir])] at href
    refine .refused href ?_
    rw [updateNode, bind_ok (resolve_apply key s), bind_ok hloc]
    refine (bind_ok (vertex_apply i s) _).trans ?_
    rw [if_pos hdir]
    refine (bind_ok (vertex_apply i s) _).trans ?_
    rw [hs.key_of_at? hi, refuse_apply]
  | false =>
    rw [if_neg (by rw [Vertex.entry_of_leaf hdir]; simp)] at href
    have hg' := hs.setValue (hs.get?_of_at? hi) hdir value
    have hat : (s.graph.setValue i value).at? rootId p = some i := by
      rw [Graph.at?_congr (Graph.child?_setValue s.graph i value), hi]
    have hkeys : ((s.graph.view i).clone none false).key =
        (((s.graph.setValue i value).view i).clone none false).key := by
      rw [hs.key_snapshot hi, hg'.key_snapshot hat]
    have heff : (s.graph.setValue i value).pathMap =
        (Request.update key value).effect s.pathMap := by
      rw [hs.pathMap_setValue hi hdir, Request.effect, hp, pathMap]
    have hbody : updateNode messages key value s =
        .ok ⟨.update, ((s.graph.setValue i value).view i).clone none false,
          some ((s.graph.view i).clone none false)⟩
          { s with graph := s.graph.setValue i value } := by
      rw [updateNode, bind_ok (resolve_apply key s), bind_ok hloc]
      refine (bind_ok (vertex_apply i s) _).trans ?_
      rw [if_neg (by simp [hdir])]
      refine (bind_ok (snapshot_apply i s) _).trans ?_
      refine (bind_ok (setValue_apply i value s) _).trans ?_
      refine (bind_ok (snapshot_apply i _) _).trans ?_
      exact make_apply hkeys _
    have horder := Graph.keepsOrder_setValue (hs.get?_of_at? hi) value
    refine .done href hbody hg' heff horder ⟨rfl, ?_, ?_⟩
    · rw [hp, Graph.snapshot?, hat, Option.map_some]
    · rw [hp, Graph.snapshot?, hi, Option.map_some]

open Classical in
theorem deleteNode_meets (key : String) (recursive dir : Bool) :
    Meets messages (.delete key recursive dir) (deleteNode messages key recursive dir)
      (s.Answered (.delete key recursive dir)) s := by
  obtain ⟨p, hp⟩ : ∃ p, (Request.delete key recursive dir).path = p := ⟨_, rfl⟩
  have hroot : Path.normalize key = "/" ↔ p = [] := by
    rw [← hp, Request.path_eq_nil_iff, Request.key]
  have href : (Request.delete key recursive dir).refusal s.pathMap =
      if p = [] then some (ErrorCode.rootReadOnly, "/")
      else (s.pathMap.absence p).or
        (if dir = true ∧ s.pathMap p ≠ some .dir then some (ErrorCode.notDir, Path.render p)
        else if s.pathMap.HasChild p ∧ recursive = false then
          some (ErrorCode.dirNotEmpty, Path.render p)
        else none) := by
    rw [Request.refusal, hp]
  by_cases hnil : p = []
  · rw [if_pos hnil] at href
    refine .refused href ?_
    rw [deleteNode, bind_ok (resolve_apply key s), if_pos (hroot.mpr hnil), refuse_apply]
  rw [if_neg hnil] at href
  have hnot : ¬ Path.normalize key = "/" := fun h => hnil (hroot.mp h)
  rcases locate_cases hs messages key hp with ⟨code, cause, habs, hloc⟩ | ⟨i, hi, habs, hloc⟩
  · rw [habs, Option.some_or] at href
    refine .refused href ?_
    rw [deleteNode, bind_ok (resolve_apply key s), if_neg hnot, bind_error hloc]
  have hpi : s.pathMap p = some (s.graph.vertex i).entry := Graph.pathMap_of_at? hi
  have hdirs : (dir = true ∧ some (s.graph.vertex i).entry ≠ some .dir) ↔
      (dir && !(s.graph.vertex i).isDir) = true := by
    rw [ne_eq, Option.some.injEq, Vertex.entry_eq_dir_iff]
    simp
  have hfull : (s.pathMap.HasChild p ∧ recursive = false) ↔
      (!(s.graph.vertex i).children.isEmpty && !recursive) = true := by
    rw [pathMap, hs.hasChild_iff hi]
    simp
  rw [habs, Option.none_or, hpi] at href
  simp only [hdirs, hfull] at href
  have hwalk : deleteNode messages key recursive dir s =
      (if dir && !(s.graph.vertex i).isDir then
        refuse messages ErrorCode.notDir (Path.render p)
      else if !(s.graph.vertex i).children.isEmpty && !recursive then
        refuse messages ErrorCode.dirNotEmpty (Path.render p)
      else do
        let last ← snapshot i
        detach (← parentOf (s.graph.vertex i)) (s.graph.vertex i).name
        ofExcept (Result.make .delete last (some (last.clone none false)))) s := by
    rw [deleteNode, bind_ok (resolve_apply key s), if_neg hnot, bind_ok hloc]
    refine (bind_ok (vertex_apply i s) _).trans ?_
    rw [hs.key_of_at? hi]
  by_cases h1 : (dir && !(s.graph.vertex i).isDir) = true
  · rw [if_pos h1] at href hwalk
    exact .refused href hwalk
  rw [if_neg h1] at href hwalk
  by_cases h2 : (!(s.graph.vertex i).children.isEmpty && !recursive) = true
  · rw [if_pos h2] at href hwalk
    exact .refused href hwalk
  rw [if_neg h2] at href hwalk
  -- the node hangs in the directory its link names, under the name its key ends in
  obtain ⟨q, n, rfl⟩ := (List.eq_nil_or_concat' p).resolve_left hnil
  obtain ⟨d, hd, hc⟩ := Graph.at?_concat_eq_some_iff.mp hi
  have hv := hs.get?_of_at? hi
  have hdv := hs.get?_of_at? hd
  have hdet := hs.removeChild_detached hdv hc
  have heff : (s.graph.removeChild d n).2.pathMap =
      (Request.delete key recursive dir).effect s.pathMap := by
    rw [hs.pathMap_detached hdv hc hdet hd, Request.effect, hp, pathMap]
  have hbody : deleteNode messages key recursive dir s =
      .ok ⟨.delete, (s.graph.view i).clone none false,
        some (((s.graph.view i).clone none false).clone none false)⟩
        { s with graph := (s.graph.removeChild d n).2 } := by
    refine hwalk.trans ((bind_ok (snapshot_apply i s) _).trans ?_)
    refine (bind_ok (parentOf_apply (hs.parent_of_child? hc hv) s) _).trans ?_
    rw [hs.name_of_child? hc hv]
    refine (bind_ok (detach_apply d n s) _).trans ?_
    exact make_apply (Node.key_clone ..) _
  have horder := hs.keepsOrder_detached hdv hc hdet hd
  refine .done href hbody (hs.detached hdv hc hdet) heff horder ⟨rfl, ?_, rfl⟩
  rw [hp, Graph.snapshot?, hi, Option.map_some]

end Bodies

end Store

end TreeStore
