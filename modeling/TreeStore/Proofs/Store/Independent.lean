import TreeStore.Proofs.Store.Snapshots

/-!
# Requests that do not notice each other

Two requests on paths of which neither leads to the other have the same outcomes in either order,
down to the order of the children in their results, and leave the same paths, kinds and values.  The
order of siblings may differ, and a sorted listing does not show it.

A request keeps all that another one on a path apart can see (`Sound.serve_frame`): what stands
there and below, the leaves above it, and the order of the children there.  Since an outcome depends
on that alone (`Sound.served_congr`), it is the same before and after.
-/

namespace TreeStore.Store

section Outcome

variable {s t : Store} {r : Request}

theorem Sound.pathMap_serve (hs : s.Sound) (messages : Messages) (r : Request) :
    (serve messages r s).2.pathMap = r.apply s.pathMap := by
  rcases hs.serve_cases messages r with ⟨_, _, hr, -, hmap⟩ | ⟨_, hr, -, hmap⟩
  · rw [hmap, Request.apply_of_refused (by rw [hr]; exact Option.some_ne_none _)]
  · rw [hmap, Request.apply_of_success hr]

/-- What a request leaves as it was for whoever looks from a path apart. -/
theorem Sound.serve_frame (hs : s.Sound) (messages : Messages) {p : List String}
    (hp : Apart r.path p) :
    (serve messages r s).2.pathMap.Agrees s.pathMap p ∧
      (serve messages r s).2.graph.snapshot? p = s.graph.snapshot? p ∧
      (serve messages r s).2.config = s.config := by
  have hagree := Request.agrees_apply hs.closed hp
  rw [← hs.pathMap_serve messages] at hagree
  -- no name comes or goes from `p` down, so siblings there keep their order
  refine ⟨hagree, hs.linked.snapshot?_congr (hs.sound_serve messages r).linked p (fun q => ?_)
    fun q => ?_, hs.config_serve messages r⟩
  · exact hagree.below _ (List.prefix_append p q)
  · refine hs.linked.names_eq (hs.sound_serve messages r).linked (hs.keepsOrder_serve messages r)
      fun n => hagree.below _ ?_
    rw [List.append_assoc]
    exact List.prefix_append p _

/-- What comes of a request depends on what can be seen from its path. -/
theorem Sound.served_congr (hs : s.Sound) (ht : t.Sound) (messages : Messages)
    (hagree : t.pathMap.Agrees s.pathMap r.path)
    (hsnap : t.graph.snapshot? r.path = s.graph.snapshot? r.path) (hconfig : t.config = s.config) :
    (serve messages r t).1 = (serve messages r s).1 := by
  have href := Request.refusal_congr hs.closed ht.closed hagree
  have hsorts : t.sortsListings = s.sortsListings := by rw [sortsListings, hconfig]; rfl
  rcases hs.perform_cases messages r with ⟨_, _, hr, h⟩ | ⟨result, g, hr, h, -⟩
  · rcases ht.perform_cases messages r with ⟨_, _, hr', h'⟩ | ⟨_, _, hr', -⟩
    · rw [href, hr, Option.some.injEq, Prod.mk.injEq] at hr'
      rw [serve, serve, run, run, h, h', hr'.1, hr'.2]
    · rw [href, hr] at hr'
      cases hr'
  · obtain ⟨result', t', h'⟩ := (ht.perform_ok_iff messages r).mpr (href.trans hr)
    have hanswer := ht.perform_answer h'
    rw [hsnap, hsorts, hs.perform_answer h] at hanswer
    rw [serve, serve, run, run, h, h', Option.some.inj hanswer]

/-- Whatever was done on a path apart, the same comes of a request. -/
theorem Sound.served_after (hs : s.Sound) (messages : Messages) {r r' : Request}
    (h : Apart r.path r'.path) :
    (serve messages r' (serve messages r s).2).1 = (serve messages r' s).1 := by
  obtain ⟨hagree, hsnap, hconfig⟩ := hs.serve_frame messages h
  exact hs.served_congr (hs.sound_serve messages r) messages hagree hsnap hconfig

theorem Sound.pathMap_serve_comm (hs : s.Sound) (messages : Messages) {r r' : Request}
    (h : Apart r.path r'.path) :
    (serve messages r' (serve messages r s).2).2.pathMap =
      (serve messages r (serve messages r' s).2).2.pathMap := by
  have hr := hs.sound_serve messages r
  have hr' := hs.sound_serve messages r'
  have hE := hr.closed
  have hE' := hr'.closed
  rw [hr.pathMap_serve, hr'.pathMap_serve, hs.pathMap_serve, hs.pathMap_serve]
  rw [hs.pathMap_serve] at hE hE'
  exact Request.apply_comm hs.closed h hE hE'

/-- A sorted listing of everything shows paths, kinds and values, and nothing else. -/
theorem Sound.sorted_congr (hs : s.Sound) (ht : t.Sound) (h : t.pathMap = s.pathMap)
    (messages : Messages) :
    ∃ read, (serve messages (.get "/" true (some true)) s).1.outcome = .ok read ∧
      (serve messages (.get "/" true (some true)) t).1.outcome = .ok read := by
  have hroot : Path.split (Path.normalize "/") = [] :=
    (Path.normalize_eq_root_iff "/").mp (by decide)
  have hfree {u : Store} (hu : u.Sound) :
      (Request.get "/" true (some true)).refusal u.pathMap = none := by
    rw [Request.refusal_get_eq_none_iff hu.closed, hroot, hu.closed.root]
    exact Option.some_ne_none _
  obtain ⟨read, s', hread⟩ := (hs.perform_ok_iff messages _).mpr (hfree hs)
  obtain ⟨read', t', hread'⟩ := (ht.perform_ok_iff messages _).mpr (hfree ht)
  have hsame := hs.linked.sorted_congr ht.linked (Request.get "/" true (some true)).path
    fun q => congrFun h _
  have hsorted (sorts : Bool) (before : Option Node) :
      (Request.get "/" true (some true)).answer sorts before =
        (before.map (Node.clone none true)).map (⟨.get, ·, none⟩) := by
    rw [Option.map_map]
    rfl
  have hanswer := hs.perform_answer hread
  have hanswer' := ht.perform_answer hread'
  rw [hsorted] at hanswer hanswer'
  rw [hsame, hanswer] at hanswer'
  refine ⟨read, by rw [serve, run, hread], ?_⟩
  rw [serve, run, hread', Option.some.inj hanswer']

end Outcome

/-- Two requests on paths of which neither leads to the other have the same outcomes in either
order, and leave the same paths with the same kinds and values, so that a sorted listing of
everything is the same. -/
theorem Reachable.independent_commute {s : Store} (hs : s.Reachable) (messages : Messages)
    {r r' : Request} (h : Apart r.path r'.path) :
    (serve messages r (serve messages r' s).2).1 = (serve messages r s).1 ∧
    (serve messages r' (serve messages r s).2).1 = (serve messages r' s).1 ∧
    (serve messages r' (serve messages r s).2).2.pathMap =
      (serve messages r (serve messages r' s).2).2.pathMap ∧
    ∃ read,
      (serve messages (.get "/" true (some true))
        (serve messages r' (serve messages r s).2).2).1.outcome = .ok read ∧
      (serve messages (.get "/" true (some true))
        (serve messages r (serve messages r' s).2).2).1.outcome = .ok read := by
  have hsound := hs.sound
  have hboth := (hsound.sound_serve messages r).sound_serve messages r'
  have hboth' := (hsound.sound_serve messages r').sound_serve messages r
  have hmap := hsound.pathMap_serve_comm messages h
  exact ⟨hsound.served_after messages h.symm, hsound.served_after messages h, hmap,
    hboth.sorted_congr hboth' hmap.symm messages⟩

/-- Two nodes below a directory that the first of them brings: each is answered as if it were the
first, and their order tells which one was. -/
theorem independent_commute_siblings :
    ∃ r r' : Request, Apart r.path r'.path ∧
      (serve Messages.empty r' (serve Messages.empty r {}).2).1 = (serve Messages.empty r' {}).1 ∧
      (serve Messages.empty r' (serve Messages.empty r {}).2).2.graph.names ["a"] = ["x", "y"] ∧
      (serve Messages.empty r (serve Messages.empty r' {}).2).2.graph.names ["a"] = ["y", "x"] := by
  have h : Apart (Request.create "/a/x" false none).path (Request.create "/a/y" false none).path :=
    show Apart ["a", "x"] ["a", "y"] from ⟨by decide, by decide⟩
  obtain ⟨-, hlater, -, -⟩ := (Reachable.new {}).independent_commute Messages.empty h
  exact ⟨_, _, h, hlater, rfl, rfl⟩

end TreeStore.Store
